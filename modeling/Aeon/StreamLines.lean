import Aeon.Library.Cutting
import Aeon.StreamReads

/-!
# Reading a stream by lines

`socket::read_line` on a connection, beside the lines that end in CR LF.  The
function remembers that a carriage return and that a line feed have come, in any
order and with anything between them.
-/

namespace Aeon

open Cutting

def carriageReturn : UInt8 := 13
def lineFeed : UInt8 := 10

/-- The last two bytes are CR and LF. -/
def EndsCrlf (line : List UInt8) : Prop := [carriageReturn, lineFeed] <:+ line

/-- Both bytes have come, which is what `bCarriage` and `bLinefeed` say. -/
def HasBoth (line : List UInt8) : Prop := carriageReturn ∈ line ∧ lineFeed ∈ line

instance : DecidablePred EndsCrlf := fun _ => inferInstanceAs (Decidable (_ <:+ _))

instance : DecidablePred HasBoth := fun _ => inferInstanceAs (Decidable (_ ∧ _))

theorem EndsCrlf.hasBoth {line : List UInt8} (h : EndsCrlf line) : HasBoth line :=
  ⟨h.subset (by simp), h.subset (by simp)⟩

/-- The bytes that single reads get from the native call `tick` on, before the
end of the stream or an error and at most `room`. -/
def Wire.arriving (w : Wire) : ℕ → ℕ → ℕ → List UInt8
  | 0, _, _ => []
  | room + 1, tick, position =>
    match w.arrival tick with
    | .data _ => w.bytes position :: w.arriving room (tick + 1) (position + 1)
    | _ => []

namespace Reader

variable (w : Wire)

/-- `safe_size`. -/
def safeSize (size : Int) : ℕ := (min size Socket.maxBufferSize).toNat

/-- `recv` of `room` bytes. -/
def recv (room : ℕ) (r : Reader) : (IoResult × List UInt8) × Reader :=
  let answer := r.socket.nativeRecv (w.host r.position) room
  (answer.1, ⟨answer.2, r.position + answer.1.2.length⟩)

/-- The loop of `read_line` from place `i` on; `last` is `safe_size - 1`. -/
def readLineLoop (last : ℕ) : ℕ → ℕ → Bool → Bool → Memory UInt8 → Reader →
    (Int × Memory UInt8) × Reader
  | 0, _, _, _, m, r => ((r.socket.n, m.put last 0), r)
  | room + 1, i, carriage, linefeed, m, r =>
    let answer := r.recv w 1
    let r := answer.2
    if answer.1.1.ret = 0 then
      ((r.socket.n, m.put last 0), { r with socket := { r.socket with connected := false } })
    else if answer.1.1.ret < 0 then
      ((r.socket.n, m.put last 0),
        { r with socket := r.socket.setError (translateNativeError answer.1.1.errno) })
    else
      let byte := answer.1.2.headD 0
      let r := { r with socket := { r.socket with n := r.socket.n + answer.1.1.ret } }
      let m := m.put i byte
      let carriage := carriage || byte == carriageReturn
      let linefeed := linefeed || byte == lineFeed
      if carriage && linefeed then ((r.socket.n, m.put (min (i + 1) last) 0), r)
      else readLineLoop last room (i + 1) carriage linefeed m r

/-- `read_line(buffer, size)`; a null buffer is `false`. -/
def readLine (buffer : Bool) (m : Memory UInt8) (size : Int) (r : Reader) :
    (Int × Memory UInt8) × Reader :=
  if !buffer || !r.socket.isValidSocket || size ≤ 0 then ((-1, m), r)
  else
    readLineLoop w (safeSize size - 1) (safeSize size - 1) 0 false false (m.fill (safeSize size) 0)
      { r with socket := { r.socket with n := 0 } }

/-! ### What the loop reads -/

/-- The loop has `line` in the buffer, and the rest of it is clear. -/
structure Reading (safe : ℕ) (line : List UInt8) (m : Memory UInt8) (r : Reader) : Prop where
  valid : r.socket.isValidSocket
  count : r.socket.n = line.length
  text : m.text line.length = line
  clear : ∀ j, line.length ≤ j → j < safe → m j = 0

/-- The line that the function returns, with the bytes before it still in front. -/
structure Line (safe : ℕ) (m : Memory UInt8) (r : Reader) (line before : List UInt8)
    (out : (Int × Memory UInt8) × Reader) : Prop where
  returned : out.1.1 = line.length
  consumed : out.2.position + before.length = r.position + line.length
  text : out.1.2.text line.length = line
  terminated : out.1.2 line.length = 0
  inside : line.length < safe
  untouched : m.SameFrom safe out.1.2
  onward : r.socket.Onward out.2.socket

variable {w}

theorem recv_data {r : Reader} {fd : ℕ} (hfd : r.socket.sockfd = some fd) {more : ℕ}
    (harrival : w.arrival r.socket.tick = .data more) :
    r.recv w 1 = ((⟨1, 0⟩, [w.bytes r.position]),
      ⟨r.socket.ticked.record (.recv fd), r.position + 1⟩) := by
  unfold Reader.recv Socket.nativeRecv
  rw [hfd]
  simp [Wire.host, harrival, Wire.segment]

theorem recv_eof {r : Reader} {fd : ℕ} (hfd : r.socket.sockfd = some fd)
    (harrival : w.arrival r.socket.tick = .eof) :
    r.recv w 1 = ((⟨0, 0⟩, []), ⟨r.socket.ticked.record (.recv fd), r.position⟩) := by
  unfold Reader.recv Socket.nativeRecv
  rw [hfd]
  simp [Wire.host, harrival]

theorem recv_failed {r : Reader} {fd : ℕ} (hfd : r.socket.sockfd = some fd) {errno : ℕ}
    (harrival : w.arrival r.socket.tick = .failed errno) :
    r.recv w 1 = ((⟨-1, errno⟩, []), ⟨r.socket.ticked.record (.recv fd), r.position⟩) := by
  unfold Reader.recv Socket.nativeRecv
  rw [hfd]
  simp [Wire.host, harrival]

/-- One more byte in the buffer. -/
theorem Reading.snoc {safe : ℕ} {line : List UInt8} {m : Memory UInt8} {r : Reader}
    (h : Reading safe line m r) (fd : ℕ) (byte : UInt8) :
    Reading safe (line ++ [byte]) (m.put line.length byte)
      ⟨{ r.socket.ticked.record (.recv fd) with n := r.socket.n + 1 }, r.position + 1⟩ where
  valid := h.valid
  count := by simp [h.count]
  text := by
    rw [List.length_append, List.length_singleton, Memory.text_put, h.text]
  clear j hj hsafe := by
    rw [List.length_append, List.length_singleton] at hj
    have hplace : m.put line.length byte j = m j := if_neg (by omega)
    rw [hplace]
    exact h.clear j (by omega) hsafe

/-- The loop ends: a zero is written at place `last` or at the end of the line. -/
theorem Reading.ends {last place : ℕ} {line : List UInt8} {m : Memory UInt8} {r : Reader}
    (h : Reading (last + 1) line m r) (hline : line.length ≤ place) (hplace : place ≤ last)
    {s : Socket} (hon : r.socket.Onward s) :
    Line (last + 1) m r line line ((r.socket.n, m.put place 0), ⟨s, r.position⟩) where
  returned := h.count
  consumed := rfl
  text := by rw [Memory.text_put_of_le m hline, h.text]
  terminated := by
    show (if line.length = place then 0 else m line.length) = 0
    split
    · rfl
    · exact h.clear _ le_rfl (by omega)
  inside := by omega
  untouched := .put (by omega) 0 m
  onward := hon

theorem mem_snoc (byte next : UInt8) (line : List UInt8) :
    (decide (byte ∈ line) || next == byte) = decide (byte ∈ line ++ [next]) := by
  rw [Bool.eq_iff_iff, Bool.or_eq_true, decide_eq_true_iff, decide_eq_true_iff, beq_iff_eq,
    List.mem_append, List.mem_singleton]
  exact or_congr_right eq_comm

/-- The line from one byte earlier. -/
theorem Line.before {safe : ℕ} {m m' : Memory UInt8} {r r' : Reader} {line before : List UInt8}
    {byte : UInt8} {out : (Int × Memory UInt8) × Reader} (h : Line safe m' r' line (before ++ [byte]) out)
    (hposition : r'.position = r.position + 1) (hsame : m.SameFrom safe m')
    (hon : r.socket.Onward r'.socket) : Line safe m r line before out where
  returned := h.returned
  consumed := by
    have hconsumed := h.consumed
    rw [hposition, List.length_append, List.length_singleton] at hconsumed
    omega
  text := h.text
  terminated := h.terminated
  inside := h.inside
  untouched := hsame.trans h.untouched
  onward := hon.trans h.onward

/-- The loop takes what arrives until both bytes have come. -/
theorem readLineLoop_line {last room : ℕ} {line : List UInt8} {m : Memory UInt8} {r : Reader}
    (h : Reading (last + 1) line m r) (hroom : line.length + room = last) :
    Line (last + 1) m r (cut HasBoth line (w.arriving room r.socket.tick r.position)) line
      (readLineLoop w last room line.length (carriageReturn ∈ line) (lineFeed ∈ line) m r) := by
  induction room generalizing line m r with
  | zero =>
    exact h.ends (by omega) le_rfl (.refl _)
  | succ room ih =>
    obtain ⟨fd, hfd⟩ := Option.isSome_iff_exists.mp h.valid
    have hon : r.socket.Onward (r.socket.ticked.record (.recv fd)) := ⟨rfl, rfl, Nat.le_succ _⟩
    unfold readLineLoop Wire.arriving
    dsimp only
    cases harrival : w.arrival r.socket.tick with
    | eof =>
      rw [recv_eof hfd harrival]
      exact h.ends (by omega) le_rfl ⟨hon.sockfd, hon.readTimeoutMs, hon.tick⟩
    | failed errno =>
      rw [recv_failed hfd harrival]
      exact h.ends (by omega) le_rfl ⟨hon.sockfd, hon.readTimeoutMs, hon.tick⟩
    | data more =>
      rw [recv_data hfd harrival]
      dsimp only
      rw [if_neg (by decide), if_neg (by decide)]
      have hsnoc := h.snoc fd (w.bytes r.position)
      have hlength : (line ++ [w.bytes r.position]).length = line.length + 1 := by simp
      have hsame : m.SameFrom (last + 1) (m.put line.length (w.bytes r.position)) := .put (by omega) _ m
      have hfirst : r.socket.Onward
          { r.socket.ticked.record (.recv fd) with n := r.socket.n + 1 } := ⟨rfl, rfl, Nat.le_succ _⟩
      have hboth : (decide (carriageReturn ∈ line ++ [w.bytes r.position]) &&
          decide (lineFeed ∈ line ++ [w.bytes r.position])) =
          decide (HasBoth (line ++ [w.bytes r.position])) := (Bool.decide_and _ _).symm
      rw [List.headD_cons, mem_snoc, mem_snoc, hboth]
      unfold cut
      by_cases hend : HasBoth (line ++ [w.bytes r.position])
      · rw [if_pos hend, if_pos (decide_eq_true hend)]
        refine (hsnoc.ends ?_ (min_le_right _ _) (.refl _)).before rfl hsame hfirst
        omega
      · rw [if_neg hend, if_neg (by simpa using hend)]
        have hrest := ih hsnoc (by omega)
        rw [hlength] at hrest
        exact hrest.before rfl hsame hfirst

theorem readLine_line {q : Request} {r : Reader} (hs : r.socket.isValidSocket) (hsize : 0 < q.size) :
    Line (safeSize q.size) q.buffer r
      (cut HasBoth [] (w.arriving (safeSize q.size - 1) r.socket.tick r.position)) []
      (r.readLine w true q.buffer q.size) := by
  have hopen : ¬ ((!true || !r.socket.isValidSocket || decide (q.size ≤ 0)) = true) := by
    simp [hs, hsize]
  have hsafe : safeSize q.size - 1 + 1 = safeSize q.size := by
    unfold safeSize Socket.maxBufferSize
    omega
  have hreading : Reading (safeSize q.size - 1 + 1) [] (q.buffer.fill (safeSize q.size) 0)
      { r with socket := { r.socket with n := 0 } } :=
    { valid := hs
      count := rfl
      text := rfl
      clear := fun j _ hj => if_pos (hsafe ▸ hj) }
  have hline := readLineLoop_line (w := w) hreading (Nat.zero_add _)
  unfold readLine
  rw [if_neg hopen]
  rw [hsafe] at hline
  exact
    { returned := hline.returned
      consumed := hline.consumed
      text := hline.text
      terminated := hline.terminated
      inside := hline.inside
      untouched := (Memory.SameFrom.fill _ 0 q.buffer).trans hline.untouched
      onward := ⟨hline.onward.sockfd, hline.onward.readTimeoutMs, hline.onward.tick⟩ }

/-! ### Lines that end in CR LF -/

/-- The next line of the stream: up to the first CR LF, or else what arrives and
fits. -/
def nextLine (w : Wire) (q : Request) (r : Reader) : List UInt8 :=
  cut EndsCrlf [] (w.arriving (safeSize q.size - 1) r.socket.tick r.position)

/-- The call takes the next line from the stream, and puts it into the buffer as
a string. -/
structure Splits (w : Wire) (q : Request) (r : Reader) : Prop where
  returned : (r.readLine w true q.buffer q.size).1.1 = (nextLine w q r).length
  consumed : (r.readLine w true q.buffer q.size).2.position = r.position + (nextLine w q r).length
  text : (r.readLine w true q.buffer q.size).1.2.text (nextLine w q r).length = nextLine w q r
  terminated : (r.readLine w true q.buffer q.size).1.2 (nextLine w q r).length = 0
  inside : (nextLine w q r).length < safeSize q.size
  untouched : q.buffer.SameFrom (safeSize q.size) (r.readLine w true q.buffer q.size).1.2

/-- Both bytes have not come before the end of the line. -/
def Clean (line : List UInt8) : Prop := ∀ p, p <+: line → p ≠ line → ¬ HasBoth p

instance : DecidablePred Clean := fun line =>
  decidable_of_iff (∀ p ∈ line.inits, p ≠ line → ¬ HasBoth p) (by
    unfold Clean
    simp only [List.mem_inits])

theorem splits_iff {q : Request} {r : Reader} (hs : r.socket.isValidSocket) (hsize : 0 < q.size) :
    Splits w q r ↔ Clean (nextLine w q r) := by
  have hline := readLine_line (w := w) hs hsize
  have hnil : ∀ p : List UInt8, p <+: [] → ¬ HasBoth p := by
    intro p hp hboth
    rw [List.prefix_nil.mp hp] at hboth
    cases hboth.1
  have hboth : Cuts HasBoth _ _ := cut_cuts []
    (w.arriving (safeSize q.size - 1) r.socket.tick r.position) hnil
  have hcrlf : Cuts EndsCrlf _ (nextLine w q r) := cut_cuts []
    (w.arriving (safeSize q.size - 1) r.socket.tick r.position) fun p hp h => hnil p hp h.hasBoth
  have hiff := hboth.eq_iff hcrlf fun _ => EndsCrlf.hasBoth
  generalize cut HasBoth [] (w.arriving (safeSize q.size - 1) r.socket.tick r.position) = line at *
  constructor
  · intro hsplits
    apply hiff.mp
    have hlength : line.length = (nextLine w q r).length := by
      have hreturned := hline.returned
      rw [hsplits.returned] at hreturned
      exact Int.natCast_inj.mp hreturned.symm
    exact (List.prefix_of_prefix_length_le hboth.starts hcrlf.starts hlength.le).eq_of_length hlength
  · intro hclean
    have heq : line = nextLine w q r := hiff.mpr hclean
    rw [heq] at hline
    exact
      { returned := hline.returned
        consumed := hline.consumed
        text := hline.text
        terminated := hline.terminated
        inside := hline.inside
        untouched := hline.untouched }

/-- Every one of the calls takes the next line. -/
def SplitsAll (w : Wire) : List Request → Reader → Prop
  | [], _ => True
  | q :: rest, r => Splits w q r ∧ SplitsAll w rest (r.readLine w true q.buffer q.size).2

def CleanAll (w : Wire) : List Request → Reader → Prop
  | [], _ => True
  | q :: rest, r => Clean (nextLine w q r) ∧ CleanAll w rest (r.readLine w true q.buffer q.size).2

/-- Successive calls split the stream into its lines exactly as long as no line
has a carriage return and a line feed in it before its last byte. -/
theorem readLines_split_iff (w : Wire) (requests : List Request) (r : Reader)
    (hs : r.socket.isValidSocket) (hsizes : ∀ q ∈ requests, 0 < q.size) :
    SplitsAll w requests r ↔ CleanAll w requests r := by
  induction requests generalizing r with
  | nil => exact Iff.rfl
  | cons q rest ih =>
    have hsize : 0 < q.size := hsizes q (List.mem_cons_self ..)
    have hlater : (r.readLine w true q.buffer q.size).2.socket.isValidSocket :=
      (readLine_line hs hsize).onward.valid hs
    exact and_congr (splits_iff hs hsize)
      (ih _ hlater fun q' hq' => hsizes q' (List.mem_cons_of_mem _ hq'))

/-- A connection that brings these bytes. -/
def bringing (bytes : List UInt8) : Wire := ⟨.steady, fun i => bytes.getD i 0, fun _ => .data 0⟩

/-- "one" and "two", each with CR LF. -/
theorem readLines_split_two :
    SplitsAll (bringing [111, 110, 101, 13, 10, 116, 119, 111, 13, 10])
      [⟨32, fun _ => 7⟩, ⟨32, fun _ => 7⟩] ⟨{ sockfd := some 3 }, 0⟩ :=
  (readLines_split_iff _ _ _ rfl (by simp)).mpr ⟨by decide +kernel, by decide +kernel, trivial⟩

/-- A line feed alone in the first line, "a", LF, "b", CR, LF: the call returns
at the carriage return, and the last line feed goes to the next call. -/
theorem lone_line_feed_not_split :
    ¬ SplitsAll (bringing [97, 10, 98, 13, 10]) [⟨10, fun _ => 7⟩] ⟨{ sockfd := some 3 }, 0⟩ := by
  intro hsplits
  have hclean := (splits_iff rfl (by decide)).mp hsplits.1
  revert hclean
  decide +kernel

/-! ### The call on the socket alone -/

/-- The answers to single reads from the reader on, each of which takes a byte. -/
def lineHost (w : Wire) (start : Reader) : Host := { w.base with
  recv := fun tick room => (w.host (start.position + (tick - start.socket.tick))).recv tick room }

theorem nativeRecv_lineHost {start r : Reader}
    (h : r.position = start.position + (r.socket.tick - start.socket.tick)) :
    r.socket.nativeRecv (lineHost w start) 1 = r.socket.nativeRecv (w.host r.position) 1 := by
  unfold Socket.nativeRecv
  split
  · rfl
  · rw [h]
    rfl

theorem readLineLoop_socket (start : Reader) {r : Reader} (last room i : ℕ) (carriage linefeed : Bool)
    (m : Memory UInt8) (line : List UInt8) (hstart : start.socket.tick ≤ r.socket.tick)
    (h : r.position = start.position + (r.socket.tick - start.socket.tick)) :
    let out := readLineLoop w last room i carriage linefeed m r
    let plain := r.socket.readLineLoop (lineHost w start) room carriage linefeed line
    out.1.1 = plain.1.1 ∧ out.2.socket = plain.2 := by
  induction room generalizing i carriage linefeed m r line with
  | zero => exact ⟨rfl, rfl⟩
  | succ room ih =>
    unfold readLineLoop Socket.readLineLoop
    rw [nativeRecv_lineHost h]
    cases hfd : r.socket.sockfd with
    | none =>
      have hanswer : r.socket.nativeRecv (w.host r.position) 1 = ((⟨-1, Errno.EBADF⟩, []), r.socket) := by
        unfold Socket.nativeRecv
        rw [hfd]
      have hrecv : r.recv w 1 = ((⟨-1, Errno.EBADF⟩, []), r) := by
        unfold Reader.recv
        rw [hanswer]
        rfl
      rw [hanswer, hrecv]
      exact ⟨rfl, rfl⟩
    | some fd =>
      have hsame : (r.recv w 1).1 = (r.socket.nativeRecv (w.host r.position) 1).1 ∧
          (r.recv w 1).2.socket = (r.socket.nativeRecv (w.host r.position) 1).2 := ⟨rfl, rfl⟩
      cases harrival : w.arrival r.socket.tick with
      | eof =>
        rw [recv_eof hfd harrival] at hsame ⊢
        generalize r.socket.nativeRecv (w.host r.position) 1 = answer at hsame
        obtain ⟨answer, later⟩ := answer
        obtain ⟨rfl, rfl⟩ := hsame
        exact ⟨rfl, rfl⟩
      | failed errno =>
        rw [recv_failed hfd harrival] at hsame ⊢
        generalize r.socket.nativeRecv (w.host r.position) 1 = answer at hsame
        obtain ⟨answer, later⟩ := answer
        obtain ⟨rfl, rfl⟩ := hsame
        exact ⟨rfl, rfl⟩
      | data more =>
        rw [recv_data hfd harrival] at hsame ⊢
        generalize r.socket.nativeRecv (w.host r.position) 1 = answer at hsame
        obtain ⟨answer, later⟩ := answer
        obtain ⟨rfl, rfl⟩ := hsame
        dsimp only
        have hone : ¬ ((1 : Int) = 0) ∧ ¬ ((1 : Int) < 0) := by decide
        rw [if_neg hone.1, if_neg hone.2, if_neg hone.1, if_neg hone.2, List.headD_cons]
        by_cases hend : ((carriage || w.bytes r.position == carriageReturn) &&
            (linefeed || w.bytes r.position == lineFeed)) = true
        · have hplain : ((carriage || w.bytes r.position == 13) &&
              (linefeed || w.bytes r.position == 10)) = true := hend
          rw [if_pos hend, if_pos hplain]
          exact ⟨rfl, rfl⟩
        · have hplain : ¬ ((carriage || w.bytes r.position == 13) &&
              (linefeed || w.bytes r.position == 10)) = true := hend
          have hlater : r.position + 1 = start.position + (r.socket.tick + 1 - start.socket.tick) := by
            omega
          rw [if_neg hend, if_neg hplain]
          exact ih _ _ _ _ _ (hstart.trans (Nat.le_succ _)) hlater

/-- With the buffer and the stream left out, the call is `Socket.readLine`. -/
theorem readLine_socket (buffer : Bool) (m : Memory UInt8) (size : Int) (r : Reader) :
    (r.readLine w buffer m size).1.1 = (r.socket.readLine (lineHost w r) buffer size).1.1 ∧
      (r.readLine w buffer m size).2.socket = (r.socket.readLine (lineHost w r) buffer size).2 := by
  unfold readLine Socket.readLine
  split
  · exact ⟨rfl, rfl⟩
  · exact readLineLoop_socket r _ _ _ _ _ _ _ le_rfl (by simp)

end Reader

end Aeon
