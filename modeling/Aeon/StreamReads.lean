import Aeon.Library.Memory
import Aeon.SocketIo

/-!
# Reading a stream of bytes

A connection as the bytes that its peer sends and as what each native call
finds of them, and `socket::read_until` on it for any way in which the bytes
arrive.  The buffer of the caller is a `Memory`.
-/

namespace Aeon

/-- What is there for a native call: some bytes (`more` after the first), the end
of the stream, or an error. -/
inductive Arrival
  | data (more : ℕ)
  | eof
  | failed (errno : ℕ)
  deriving DecidableEq, Repr

/-- The bytes of a stream, and how they arrive. -/
structure Wire where
  base : Host
  bytes : ℕ → UInt8
  arrival : ℕ → Arrival

namespace Wire

def segment (w : Wire) (position count : ℕ) : List UInt8 :=
  (List.range count).map fun i => w.bytes (position + i)

/-- The answers to a socket that has taken `position` bytes. -/
def host (w : Wire) (position : ℕ) : Host := { w.base with
  recv := fun tick room => match w.arrival tick with
    | .data more => (⟨(min (more + 1) room : ℕ), 0⟩, w.segment position (min (more + 1) room))
    | .eof => (⟨0, 0⟩, [])
    | .failed errno => (⟨-1, errno⟩, []) }

@[simp] theorem segment_length (w : Wire) (position count : ℕ) :
    (w.segment position count).length = count := by
  rw [segment, List.length_map, List.length_range]

theorem segment_add (w : Wire) (position a b : ℕ) :
    w.segment position (a + b) = w.segment position a ++ w.segment (position + a) b := by
  unfold segment
  rw [List.range_add, List.map_append, List.map_map]
  congr 1
  apply List.map_congr_left
  intro i _
  exact congr_arg w.bytes (by simp [Nat.add_assoc])

/-- The native call of a `read` on the socket, after the wait for a timeout. -/
def recvTick (s : Socket) : ℕ := if s.readTimeoutMs > 0 then s.tick + 1 else s.tick

/-- The next `read` of the socket gets nothing. -/
inductive Refuses (w : Wire) (s : Socket) : Prop
  | timeout : s.readTimeoutMs > 0 → (w.base.select s.tick).ret = 0 → Refuses w s
  | waitFailed : s.readTimeoutMs > 0 → (w.base.select s.tick).ret < 0 → Refuses w s
  | eof : w.arrival (recvTick s) = .eof → Refuses w s
  | failed {errno : ℕ} : w.arrival (recvTick s) = .failed errno → Refuses w s

end Wire

/-- The socket later on: the same descriptor and the same timeout. -/
structure Socket.Onward (s t : Socket) : Prop where
  sockfd : t.sockfd = s.sockfd
  readTimeoutMs : t.readTimeoutMs = s.readTimeoutMs
  tick : s.tick ≤ t.tick

namespace Socket.Onward

theorem refl (s : Socket) : s.Onward s := ⟨rfl, rfl, le_rfl⟩

theorem trans {s t u : Socket} (h : s.Onward t) (h' : t.Onward u) : s.Onward u :=
  ⟨h'.sockfd.trans h.sockfd, h'.readTimeoutMs.trans h.readTimeoutMs, h.tick.trans h'.tick⟩

theorem valid {s t : Socket} (h : s.Onward t) (hs : s.isValidSocket) : t.isValidSocket := by
  unfold Socket.isValidSocket at *
  rwa [h.sockfd]

end Socket.Onward

/-- A socket, and how many bytes of the stream it has taken. -/
structure Reader where
  socket : Socket
  position : ℕ := 0

/-- A call of `read_until`. -/
structure Request where
  size : Int
  buffer : Memory UInt8

namespace Reader

variable (w : Wire)

/-- `read(buffer + offset, size)`. -/
def read (m : Memory UInt8) (offset size : ℕ) (r : Reader) : (Int × Memory UInt8) × Reader :=
  let answer := r.socket.read (w.host r.position) true size
  ((answer.1.1, m.store offset answer.1.2), ⟨answer.2, r.position + answer.1.2.length⟩)

/-- The loop of `read_until`, which keeps what it has when a read gets nothing. -/
def readUntilLoop (size total : ℕ) (m : Memory UInt8) (r : Reader) : (ℕ × Memory UInt8) × Reader :=
  if total < size then
    let answer := r.read w m total (size - total)
    if 0 < answer.1.1 then readUntilLoop size (total + answer.1.1.toNat) answer.1.2 answer.2
    else ((total, answer.1.2), answer.2)
  else ((total, m), r)
termination_by size - total
decreasing_by
  change size - (total + answer.1.1.toNat) < size - total
  omega

/-- `read_until(buffer, size)`; a null buffer is `false`. -/
def readUntil (buffer : Bool) (m : Memory UInt8) (size : Int) (r : Reader) :
    (Int × Memory UInt8) × Reader :=
  if !buffer || !r.socket.isValidSocket || size ≤ 0 then
    let ended := r.socket.readEnds (-1) (if r.socket.isValidSocket then errInvalidArgument else errNoSocket)
    ((ended.1.1, m), { r with socket := ended.2 })
  else
    let out := r.readUntilLoop w size.toNat 0 m
    ((out.1.1, out.1.2), out.2)

/-- Calls one after the other. -/
def readUntils : List Request → Reader → List (Int × Memory UInt8) × Reader
  | [], r => ([], r)
  | q :: rest, r =>
    let answer := r.readUntil w true q.buffer q.size
    let later := readUntils rest answer.2
    (answer.1 :: later.1, later.2)

/-! ### One read -/

/-- A read takes the next bytes, or it gets nothing and changes nothing. -/
inductive Took (m : Memory UInt8) (offset size : ℕ) (r : Reader) :
    (Int × Memory UInt8) × Reader → Prop
  | bytes {count : ℕ} {s : Socket} : 0 < count → count ≤ size → r.socket.Onward s →
      Took m offset size r ((count, m.store offset (w.segment r.position count)), ⟨s, r.position + count⟩)
  | nothing {ret : Int} {s : Socket} : ret ≤ 0 → w.Refuses r.socket → r.socket.Onward s →
      s = (r.socket.read (w.host r.position) true size).2 →
      Took m offset size r ((ret, m), ⟨s, r.position⟩)

theorem store_nil (m : Memory UInt8) (offset : ℕ) : m.store offset [] = m := by
  funext j
  unfold Memory.store
  split <;> rfl

variable {w}

theorem nothing_of_read {r : Reader} {ret : Int} {s : Socket} {size : ℕ} (m : Memory UInt8) (offset : ℕ)
    (hread : r.socket.read (w.host r.position) true size = ((ret, []), s)) (hret : ret ≤ 0)
    (hrefuses : w.Refuses r.socket) (hon : r.socket.Onward s) :
    Took w m offset size r (r.read w m offset size) := by
  have hanswer : r.read w m offset size = ((ret, m), ⟨s, r.position⟩) := by
    unfold Reader.read
    rw [hread]
    exact congr_arg (fun n => ((ret, n), _)) (store_nil m offset)
  rw [hanswer]
  exact .nothing hret hrefuses hon (by rw [hread])

/-- The part of a read after the wait. -/
theorem took_of_recv {r : Reader} {s : Socket} {size : ℕ} {fd : ℕ} (hfd : r.socket.sockfd = some fd)
    (hsize : 0 < size) (m : Memory UInt8) (offset : ℕ) (hon : r.socket.Onward s)
    (htick : s.tick = Wire.recvTick r.socket)
    (hread : r.socket.read (w.host r.position) true size =
      let answer := s.nativeRecv (w.host r.position) size
      ((answer.1.1.ret, if answer.1.1.ret > 0 then answer.1.2 else []), { answer.2 with
        n := answer.1.1.ret
        connected := if answer.1.1.ret = 0 then false else answer.2.connected
        errorCode := if answer.1.1.ret < 0 then translateNativeError answer.1.1.errno else errNone })) :
    Took w m offset size r (r.read w m offset size) := by
  have hlater : r.socket.Onward (s.ticked.record (.recv fd)) :=
    ⟨hon.sockfd, hon.readTimeoutMs, hon.tick.trans (Nat.le_succ _)⟩
  unfold Socket.nativeRecv at hread
  rw [hon.sockfd, hfd] at hread
  dsimp only at hread
  cases harrival : w.arrival s.tick with
  | data more =>
    have hcount : 0 < min (more + 1) size := by omega
    have hanswer : (w.host r.position).recv s.tick size =
        (⟨(min (more + 1) size : ℕ), 0⟩, w.segment r.position (min (more + 1) size)) := by
      simp only [Wire.host, harrival]
    rw [hanswer] at hread
    dsimp only at hread
    rw [if_pos (Int.natCast_pos.mpr hcount)] at hread
    unfold Reader.read
    dsimp only
    rw [hread]
    dsimp only
    rw [Wire.segment_length]
    exact .bytes hcount (min_le_right _ _) ⟨hlater.sockfd, hlater.readTimeoutMs, hlater.tick⟩
  | eof =>
    have hanswer : (w.host r.position).recv s.tick size = (⟨0, 0⟩, []) := by
      simp only [Wire.host, harrival]
    rw [hanswer] at hread
    dsimp only at hread
    exact nothing_of_read m offset hread le_rfl (.eof (htick ▸ harrival))
      ⟨hlater.sockfd, hlater.readTimeoutMs, hlater.tick⟩
  | failed errno =>
    have hanswer : (w.host r.position).recv s.tick size = (⟨-1, errno⟩, []) := by
      simp only [Wire.host, harrival]
    rw [hanswer] at hread
    dsimp only at hread
    exact nothing_of_read m offset hread (by decide) (.failed (htick ▸ harrival))
      ⟨hlater.sockfd, hlater.readTimeoutMs, hlater.tick⟩

theorem took {r : Reader} (hs : r.socket.isValidSocket) {size : ℕ} (hsize : 0 < size)
    (m : Memory UInt8) (offset : ℕ) : Took w m offset size r (r.read w m offset size) := by
  obtain ⟨fd, hfd⟩ := Option.isSome_iff_exists.mp hs
  have hopen : ¬ ((!true || !r.socket.isValidSocket || decide ((size : Int) ≤ 0)) = true) := by
    simp [hs, Nat.pos_iff_ne_zero.mp hsize]
  by_cases htimeout : r.socket.readTimeoutMs > 0
  · have hticked : r.socket.Onward r.socket.ticked := ⟨rfl, rfl, Nat.le_succ _⟩
    have hended (ret code : Int) : r.socket.Onward (r.socket.ticked.readEnds ret code).2 :=
      ⟨rfl, rfl, Nat.le_succ _⟩
    have hwait : r.socket.waitReadable (w.host r.position) =
        (w.base.select r.socket.tick, r.socket.ticked) := if_pos htimeout
    rcases lt_trichotomy (w.base.select r.socket.tick).ret 0 with hneg | hzero | hpos
    · have hread : r.socket.read (w.host r.position) true size = ((-1, []),
          (r.socket.ticked.readEnds (-1) (translateNativeError (w.base.select r.socket.tick).errno)).2) := by
        unfold Socket.read
        rw [if_neg hopen]
        dsimp only
        rw [hwait, if_neg hneg.ne, if_pos hneg]
        rfl
      exact nothing_of_read m offset hread (by decide) (.waitFailed htimeout hneg) (hended _ _)
    · have hread : r.socket.read (w.host r.position) true size =
          ((0, []), (r.socket.ticked.readEnds 0 errTimeout).2) := by
        unfold Socket.read
        rw [if_neg hopen]
        dsimp only
        rw [hwait, if_pos hzero]
        rfl
      exact nothing_of_read m offset hread le_rfl (.timeout htimeout hzero) (hended _ _)
    · apply took_of_recv hfd hsize m offset hticked (if_pos htimeout).symm
      unfold Socket.read
      rw [if_neg hopen]
      dsimp only
      rw [hwait, if_neg hpos.ne', if_neg (not_lt.mpr hpos.le)]
      rfl
  · have hwait : r.socket.waitReadable (w.host r.position) = (⟨1, 0⟩, r.socket) := if_neg htimeout
    apply took_of_recv hfd hsize m offset (.refl _) (if_neg htimeout).symm
    unfold Socket.read
    rw [if_neg hopen]
    dsimp only
    rw [hwait]
    rfl

/-! ### One call -/

/-- The call ended with a read that got nothing: a timeout, the end of the stream
or an error. -/
def Cut (w : Wire) (r r' : Reader) : Prop :=
  ∃ (s : Socket) (left : ℕ), 0 < left ∧ r.socket.Onward s ∧ w.Refuses s ∧
    r'.socket = (s.read (w.host r'.position) true left).2

/-- What the loop has done, from `total` bytes on. -/
structure Fills (w : Wire) (size total : ℕ) (m : Memory UInt8) (r : Reader)
    (out : (ℕ × Memory UInt8) × Reader) : Prop where
  grows : total ≤ out.1.1
  fits : out.1.1 ≤ size
  onward : r.socket.Onward out.2.socket
  position : out.2.position = r.position + (out.1.1 - total)
  text : out.1.2.text out.1.1 = m.text total ++ w.segment r.position (out.1.1 - total)
  untouched : m.SameFrom out.1.1 out.1.2
  short : out.1.1 < size → Cut w r out.2

theorem Cut.onward {r r' r'' : Reader} (h : r.socket.Onward r'.socket) (hcut : Cut w r' r'') :
    Cut w r r'' := by
  obtain ⟨s, left, hleft, hs, hrefuses, hend⟩ := hcut
  exact ⟨s, left, hleft, h.trans hs, hrefuses, hend⟩

theorem readUntilLoop_fills {size total : ℕ} {m : Memory UInt8} {r : Reader}
    (hs : r.socket.isValidSocket) (htotal : total ≤ size) :
    Fills w size total m r (r.readUntilLoop w size total m) := by
  induction hleft : size - total using Nat.strong_induction_on generalizing total m r with
  | _ left ih =>
    unfold readUntilLoop
    split
    · rename_i hmore
      have htook := took (w := w) hs (Nat.sub_pos_of_lt hmore) m total
      dsimp only
      generalize r.read w m total (size - total) = answer at htook
      cases htook with
      | @bytes count s hpos hle hon =>
        have hcount : total + ((count : Int)).toNat = total + count := by rw [Int.toNat_natCast]
        rw [if_pos (Int.natCast_pos.mpr hpos), hcount]
        have hrest : Fills w size (total + count) (m.store total (w.segment r.position count))
            ⟨s, r.position + count⟩ (readUntilLoop w size (total + count)
              (m.store total (w.segment r.position count)) ⟨s, r.position + count⟩) :=
          ih (size - (total + count)) (by omega) (hon.valid hs) (by omega) rfl
        generalize readUntilLoop w size (total + count) _ _ = out at hrest
        have htaken : out.1.1 - total = count + (out.1.1 - (total + count)) := by
          have hgrows := hrest.grows
          omega
        have hsame := Memory.SameFrom.store total (w.segment r.position count) m
        rw [Wire.segment_length] at hsame
        have hstore := Memory.text_store m total (w.segment r.position count)
        rw [Wire.segment_length] at hstore
        exact
          { grows := (Nat.le_add_right _ _).trans hrest.grows
            fits := hrest.fits
            onward := hon.trans hrest.onward
            position := by rw [hrest.position, htaken, Nat.add_assoc]
            text := by rw [hrest.text, hstore, htaken, Wire.segment_add, List.append_assoc]
            untouched := (hsame.mono hrest.grows).trans hrest.untouched
            short := fun h => (hrest.short h).onward hon }
      | nothing hret hrefuses hon hsocket =>
        rw [if_neg (not_lt.mpr hret)]
        exact
          { grows := le_rfl
            fits := htotal
            onward := hon
            position := by simp
            text := by simp [Wire.segment]
            untouched := .refl _ _
            short := fun _ => ⟨r.socket, _, Nat.sub_pos_of_lt hmore, .refl _, hrefuses, hsocket⟩ }
    · exact
        { grows := le_rfl
          fits := htotal
          onward := .refl _
          position := by simp
          text := by simp [Wire.segment]
          untouched := .refl _ _
          short := fun h => absurd h ‹_› }

/-- What a call owes its caller, for the bytes from the position of the reader on:
`t` of them in the first `t` places, and no other place is written. -/
structure Answers (w : Wire) (q : Request) (r : Reader) (t : ℕ)
    (out : (Int × Memory UInt8) × Reader) : Prop where
  returned : out.1.1 = t
  fits : (t : Int) ≤ q.size
  position : out.2.position = r.position + t
  text : out.1.2.text t = w.segment r.position t
  untouched : q.buffer.SameFrom t out.1.2
  short : (t : Int) < q.size → Cut w r out.2

theorem readUntil_answers {q : Request} {r : Reader} (hs : r.socket.isValidSocket) (hsize : 0 < q.size) :
    ∃ t, Answers w q r t (r.readUntil w true q.buffer q.size) ∧
      r.socket.Onward (r.readUntil w true q.buffer q.size).2.socket := by
  have hopen : ¬ ((!true || !r.socket.isValidSocket || decide (q.size ≤ 0)) = true) := by
    simp [hs, hsize]
  have hfills : Fills w q.size.toNat 0 q.buffer r (r.readUntilLoop w q.size.toNat 0 q.buffer) :=
    readUntilLoop_fills hs (Nat.zero_le _)
  unfold readUntil
  rw [if_neg hopen]
  dsimp only
  generalize r.readUntilLoop w q.size.toNat 0 q.buffer = out at hfills
  refine ⟨out.1.1, ?_, hfills.onward⟩
  have hfits := hfills.fits
  exact
    { returned := rfl
      fits := by omega
      position := by rw [hfills.position, Nat.sub_zero]
      text := by rw [hfills.text, Nat.sub_zero, Memory.text_zero, List.nil_append]
      untouched := hfills.untouched
      short := fun h => hfills.short (by omega) }

/-! ### Calls one after the other -/

/-- Each call answers for the bytes from where the one before has stopped. -/
def EachAnswers (w : Wire) : List Request → Reader → Prop
  | [], _ => True
  | q :: rest, r =>
    (∃ t, Answers w q r t (r.readUntil w true q.buffer q.size)) ∧
      EachAnswers w rest (r.readUntil w true q.buffer q.size).2

/-- No call meets a timeout, the end of the stream or an error. -/
def Uncut (w : Wire) : List Request → Reader → Prop
  | [], _ => True
  | q :: rest, r =>
    ¬ Cut w r (r.readUntil w true q.buffer q.size).2 ∧ Uncut w rest (r.readUntil w true q.buffer q.size).2

/-- What the calls have put into their buffers. -/
def taken (outs : List (Int × Memory UInt8)) : List UInt8 := outs.flatMap fun a => a.2.text a.1.toNat

theorem eachAnswers {requests : List Request} {r : Reader} (hs : r.socket.isValidSocket)
    (hsizes : ∀ q ∈ requests, 0 < q.size) : EachAnswers w requests r := by
  induction requests generalizing r with
  | nil => trivial
  | cons q rest ih =>
    obtain ⟨t, hanswer, hon⟩ := readUntil_answers (w := w) hs (hsizes q (List.mem_cons_self ..))
    exact ⟨⟨t, hanswer⟩, ih (hon.valid hs) fun q' hq' => hsizes q' (List.mem_cons_of_mem _ hq')⟩

/-- No byte is lost and none comes twice. -/
theorem EachAnswers.partition {requests : List Request} {r : Reader} (h : EachAnswers w requests r) :
    r.position ≤ (r.readUntils w requests).2.position ∧
      taken (r.readUntils w requests).1 =
        w.segment r.position ((r.readUntils w requests).2.position - r.position) := by
  induction requests generalizing r with
  | nil => simp [readUntils, taken, Wire.segment]
  | cons q rest ih =>
    obtain ⟨⟨t, hanswer⟩, hrest⟩ := h
    obtain ⟨hle, hlater⟩ := ih hrest
    unfold readUntils
    dsimp only
    generalize r.readUntil w true q.buffer q.size = out at hanswer hle hlater
    rw [hanswer.position] at hle hlater
    have htotal : (out.2.readUntils w rest).2.position - r.position =
        t + ((out.2.readUntils w rest).2.position - (r.position + t)) := by omega
    have hfirst : out.1.2.text out.1.1.toNat = w.segment r.position t := by
      rw [hanswer.returned, Int.toNat_natCast, hanswer.text]
    refine ⟨by omega, ?_⟩
    rw [htotal, Wire.segment_add, ← hlater, ← hfirst]
    rfl

/-- A call that nothing cuts short takes the number of bytes it asks for. -/
theorem Answers.full {q : Request} {r : Reader} {t : ℕ} {out : (Int × Memory UInt8) × Reader}
    (h : Answers w q r t out) (hcut : ¬ Cut w r out.2) : (t : Int) = q.size := by
  by_contra hne
  have hfits := h.fits
  exact hcut (h.short (by omega))

theorem segment_congr {w w' : Wire} (hbytes : w'.bytes = w.bytes) (position count : ℕ) :
    w'.segment position count = w.segment position count := by
  unfold Wire.segment
  rw [hbytes]

/-- Two connections that carry the same bytes, each in its own pieces. -/
theorem readUntils_pieces {w w' : Wire} (hbytes : w'.bytes = w.bytes) {requests : List Request}
    {r r' : Reader} (hposition : r'.position = r.position)
    (h : EachAnswers w requests r) (h' : EachAnswers w' requests r')
    (hcut : Uncut w requests r) (hcut' : Uncut w' requests r') :
    (r'.readUntils w' requests).1 = (r.readUntils w requests).1 := by
  induction requests generalizing r r' with
  | nil => rfl
  | cons q rest ih =>
    obtain ⟨⟨t, hanswer⟩, hrest⟩ := h
    obtain ⟨⟨t', hanswer'⟩, hrest'⟩ := h'
    have hfull := hanswer.full hcut.1
    have hfull' := hanswer'.full hcut'.1
    have hsame : t' = t := by omega
    subst hsame
    have hnext : (r'.readUntil w' true q.buffer q.size).2.position =
        (r.readUntil w true q.buffer q.size).2.position := by
      rw [hanswer.position, hanswer'.position, hposition]
    have hlater := ih hnext hrest hrest' hcut.2 hcut'.2
    have hbuffer : (r'.readUntil w' true q.buffer q.size).1.2 = (r.readUntil w true q.buffer q.size).1.2 := by
      apply Memory.eq_of_text (n := t')
      · rw [hanswer.text, hanswer'.text, hposition, segment_congr hbytes]
      · intro j hj
        rw [hanswer'.untouched j hj, hanswer.untouched j hj]
    have hfirst : (r'.readUntil w' true q.buffer q.size).1 = (r.readUntil w true q.buffer q.size).1 :=
      Prod.ext (hanswer'.returned.trans hanswer.returned.symm) hbuffer
    unfold readUntils
    dsimp only
    rw [hfirst, hlater]

/-- A transport that always has bytes cuts no call. -/
theorem uncut {w : Wire} (hready : ∀ tick, 0 < (w.base.select tick).ret)
    (hdata : ∀ tick, ∃ more, w.arrival tick = .data more) (requests : List Request) (r : Reader) :
    Uncut w requests r := by
  induction requests generalizing r with
  | nil => trivial
  | cons q rest ih =>
    refine ⟨?_, ih _⟩
    rintro ⟨s, left, -, -, hrefuses, -⟩
    obtain ⟨more, hmore⟩ := hdata (Wire.recvTick s)
    cases hrefuses with
    | timeout _ hzero => exact (hready s.tick).ne' hzero
    | waitFailed _ hneg => exact absurd (hready s.tick) (not_lt.mpr hneg.le)
    | eof heof => cases hmore.symm.trans heof
    | failed hfailed => cases hmore.symm.trans hfailed

/-- Calls of `read_until` on a stream: each takes the next bytes into the front of
its buffer, stops short only where a native call gives it nothing, and the calls
together partition what they consume.  How the bytes arrive makes no difference
to calls that nothing cuts short. -/
theorem readUntils_stream (w : Wire) (requests : List Request) (r : Reader)
    (hs : r.socket.isValidSocket) (hsizes : ∀ q ∈ requests, 0 < q.size) :
    EachAnswers w requests r ∧
      r.position ≤ (r.readUntils w requests).2.position ∧
      taken (r.readUntils w requests).1 =
        w.segment r.position ((r.readUntils w requests).2.position - r.position) ∧
      ∀ (w' : Wire) (r' : Reader), w'.bytes = w.bytes → r'.position = r.position →
        r'.socket.isValidSocket → Uncut w requests r → Uncut w' requests r' →
        (r'.readUntils w' requests).1 = (r.readUntils w requests).1 := by
  have hanswers : EachAnswers w requests r := eachAnswers hs hsizes
  refine ⟨hanswers, hanswers.partition.1, hanswers.partition.2, ?_⟩
  intro w' r' hbytes hposition hs' hcut hcut'
  exact readUntils_pieces hbytes hposition hanswers (eachAnswers hs' hsizes) hcut hcut'

def counting (piece : ℕ) : Wire := ⟨.steady, fun i => .ofNat i, fun _ => .data piece⟩

/-- The stream 0, 1, 2, … by single bytes and three at a time. -/
theorem readUntils_counting :
    (Reader.readUntils (counting 2) [⟨4, fun _ => 0⟩, ⟨3, fun _ => 7⟩] ⟨{ sockfd := some 3 }, 0⟩).1 =
      (Reader.readUntils (counting 0) [⟨4, fun _ => 0⟩, ⟨3, fun _ => 7⟩] ⟨{ sockfd := some 5 }, 0⟩).1 :=
  (readUntils_stream (counting 0) [⟨4, fun _ => 0⟩, ⟨3, fun _ => 7⟩] ⟨{ sockfd := some 5 }, 0⟩ rfl
    (by simp)).2.2.2 (counting 2) ⟨{ sockfd := some 3 }, 0⟩ rfl rfl rfl
    (uncut (fun _ => Int.one_pos) (fun _ => ⟨0, rfl⟩) _ _) (uncut (fun _ => Int.one_pos) (fun _ => ⟨2, rfl⟩) _ _)

end Reader

end Aeon
