/-
Stream framing survives any segmentation.

Whatever the socket takes and returns in one call, what is read, in flight and not
yet sent make up the stream, and the receiver is at the place of the stream that
what it has read determines.
-/
import EdgeFort.Ipc.Stream

namespace EdgeFort.Ipc

open Effect

/-! ## The stream -/

/-- A frame after its length. -/
def PyBytes.wire (f : PyBytes) : Bytes := packLength f.data.length ++ f.data

def Message.wire : Message → Bytes
  | .frame f => f.wire
  | .raw data => data

theorem parseFrameLength_length (f : PyBytes) :
    parseFrameLength (packLength f.data.length) = .ok f.data.length := by
  have hle := f.length_le
  apply parseFrameLength_packLength
  unfold maxSize at hle
  unfold maxUint
  omega

theorem Message.data_eq (m : Message) : m.data = .ok m.wire := by
  cases m with
  | raw data => rfl
  | frame f =>
    have hle := f.length_le
    have hrange : ¬((f.data.length : Int) < 0 ∨ maxUint < f.data.length) := by
      unfold maxSize at hle
      unfold maxUint
      omega
    rw [Message.data, frameLengthPrefix, if_neg hrange]
    rfl

/-! ## The sender -/

namespace Sender

/-- The bytes a sender has still to hand over. -/
def remaining : Sender → Bytes
  | .idle | .raised _ => []
  | .sending data offset later => data.drop offset ++ later.flatMap Message.wire

/-- A sender that has not raised, in a loop that has not ended. -/
def Runs : Sender → Prop
  | .idle => True
  | .sending data offset _ => offset < data.length
  | .raised _ => False

theorem start_runs (messages : List Message) :
    (start messages).Runs ∧ (start messages).remaining = messages.flatMap Message.wire := by
  induction messages with
  | nil => exact ⟨trivial, rfl⟩
  | cons m later ih =>
    rw [start, m.data_eq, List.flatMap_cons]
    dsimp only
    by_cases hpos : 0 < m.wire.length
    · rw [if_pos hpos]
      exact ⟨hpos, rfl⟩
    · have hnil : m.wire = [] := List.length_eq_zero_iff.mp (by omega)
      rw [if_neg hpos, hnil]
      exact ih

/-- What a step takes is what the sender no longer has. -/
theorem sent_runs (data : Bytes) (later : List Message) {offset count : Nat} (hcount : 0 < count)
    (hle : offset + count ≤ data.length) :
    (sent data offset count later).Runs ∧
      (data.drop offset).take count ++ (sent data offset count later).remaining =
        (sending data offset later).remaining := by
  rw [sent, if_neg (by omega)]
  have hsplit : (data.drop offset).take count ++ data.drop (offset + count) = data.drop offset := by
    rw [← List.drop_drop, List.take_append_drop]
  by_cases hmore : offset + count < data.length
  · rw [if_pos hmore]
    refine ⟨hmore, ?_⟩
    rw [remaining, remaining, ← List.append_assoc, hsplit]
  · have hnil : data.drop (offset + count) = [] := List.drop_eq_nil_of_le (by omega)
    obtain ⟨hruns, hrest⟩ := start_runs later
    rw [if_neg hmore, hrest]
    refine ⟨hruns, ?_⟩
    rw [hnil, List.append_nil] at hsplit
    rw [remaining, hsplit]

end Sender

/-! ## The receiver -/

/-- Where a receiver is in a stream of frames with a tail behind them, `rest` being
what it has not read. -/
inductive Expects (frames : List PyBytes) (tail : Bytes) : Receiver → Bytes → Prop
  | lengthPrefix (finished todo : List PyBytes) {data consumed rest : Bytes} {offset : Nat} :
      frames = finished ++ todo → data.length = framePrefixBytes → offset < data.length →
      consumed = finished.flatMap PyBytes.wire ++ data.take offset →
      data.take offset ++ rest = todo.flatMap PyBytes.wire ++ tail →
      Expects frames tail
        ⟨.lengthPrefix, data, offset, finished.map PyBytes.data, consumed, none⟩ rest
  | body (finished todo : List PyBytes) (f : PyBytes) {data consumed rest : Bytes}
      {offset : Nat} :
      frames = finished ++ f :: todo → data.length = f.data.length → offset < data.length →
      consumed = finished.flatMap PyBytes.wire ++ packLength f.data.length ++ data.take offset →
      data.take offset ++ rest = f.data ++ (todo.flatMap PyBytes.wire ++ tail) →
      Expects frames tail ⟨.body, data, offset, finished.map PyBytes.data, consumed, none⟩ rest
  | refused {call : RecvCall} {data encoded rest : Bytes} {offset : Nat} :
      tail = encoded ++ rest → encoded.length = framePrefixBytes →
      Expects frames tail ⟨call, data, offset, frames.map PyBytes.data,
        frames.flatMap PyBytes.wire ++ encoded, some Receiver.oversizeError⟩ rest

/-- A length that `_socket_recv_frame` refuses. -/
def Refused (maxFrameBytes : Int) (encoded : Bytes) : Prop :=
  ∃ size, parseFrameLength encoded = .ok size ∧ (size < 2 ∨ maxFrameBytes < size)

/-- A tail that does not reach the end of a length, or has one that is refused. -/
def EndsFrames (maxFrameBytes : Int) (tail : Bytes) : Prop :=
  framePrefixBytes ≤ tail.length → Refused maxFrameBytes (tail.take framePrefixBytes)

/-- Frames that `_socket_recv_frame` takes. -/
def Bounded (maxFrameBytes : Int) (frames : List PyBytes) : Prop :=
  ∀ f ∈ frames, 2 ≤ f.data.length ∧ (f.data.length : Int) ≤ maxFrameBytes

namespace Expects

variable {maxFrameBytes : Int} {frames : List PyBytes} {tail rest chunk : Bytes} {r : Receiver}

theorem fresh (frames : List PyBytes) (tail : Bytes) :
    Expects frames tail Receiver.fresh (frames.flatMap PyBytes.wire ++ tail) :=
  .lengthPrefix [] frames rfl rfl (by decide) rfl rfl

/-- The length of a frame has been read: the call goes on to the frame, or refuses it. -/
theorem lengthReturned (hframes : Bounded maxFrameBytes frames)
    (htail : EndsFrames maxFrameBytes tail) {finished todo : List PyBytes} {data : Bytes}
    {offset : Nat} (hsplit : frames = finished ++ todo) (hlen : data.length = framePrefixBytes)
    (hrest : data ++ rest = todo.flatMap PyBytes.wire ++ tail) :
    Expects frames tail (Receiver.returned maxFrameBytes ⟨.lengthPrefix, data, offset,
      finished.map PyBytes.data, finished.flatMap PyBytes.wire ++ data, none⟩) rest := by
  cases todo with
  | nil =>
    rw [List.append_nil] at hsplit
    rw [List.flatMap_nil, List.nil_append] at hrest
    subst hsplit hrest
    have hle : framePrefixBytes ≤ (data ++ rest).length := by
      rw [List.length_append]
      omega
    obtain ⟨size, hparse, hsize⟩ := htail hle
    rw [List.take_left' hlen] at hparse
    simp only [Receiver.returned, hparse]
    rw [if_pos hsize]
    exact .refused rfl hlen
  | cons f todo =>
    rw [List.flatMap_cons, PyBytes.wire, List.append_assoc, List.append_assoc] at hrest
    obtain ⟨hdata, hrest'⟩ := List.append_inj hrest (hlen.trans (length_packLength _).symm)
    obtain ⟨hmin, hmax⟩ := hframes f (by simp [hsplit])
    simp only [Receiver.returned, hdata, parseFrameLength_length]
    rw [if_neg (by omega)]
    apply Expects.body finished todo f hsplit
    · exact List.length_replicate
    · rw [List.length_replicate]
      omega
    · rw [List.take_zero, List.append_nil]
    · rw [List.take_zero, List.nil_append, hrest']

/-- A frame has been read. -/
theorem bodyReturned {finished todo : List PyBytes} {f : PyBytes} {offset : Nat}
    (hsplit : frames = finished ++ f :: todo)
    (hrest : rest = todo.flatMap PyBytes.wire ++ tail) :
    Expects frames tail (Receiver.returned maxFrameBytes ⟨.body, f.data, offset,
      finished.map PyBytes.data, finished.flatMap PyBytes.wire ++ packLength f.data.length ++ f.data,
      none⟩) rest := by
  have hmap : finished.map PyBytes.data ++ [f.data] = (finished ++ [f]).map PyBytes.data := by simp
  have hconsumed : finished.flatMap PyBytes.wire ++ packLength f.data.length ++ f.data =
      (finished ++ [f]).flatMap PyBytes.wire := by
    simp [PyBytes.wire]
  rw [Receiver.returned, Receiver.recvExact, hmap, hconsumed]
  exact .lengthPrefix (finished ++ [f]) todo (by simp [hsplit]) List.length_replicate
    (by rw [List.length_replicate]; decide) (by simp) (by simpa using hrest)

/-- The buffer up to the new offset. -/
theorem take_filled {data : Bytes} {offset : Nat} (h : offset + chunk.length ≤ data.length) :
    (data.take offset ++ chunk ++ data.drop (offset + chunk.length)).take
      (offset + chunk.length) = data.take offset ++ chunk := by
  apply List.take_left'
  rw [List.length_append, List.length_take]
  omega

theorem length_filled {data : Bytes} {offset : Nat} (h : offset + chunk.length ≤ data.length) :
    (data.take offset ++ chunk ++ data.drop (offset + chunk.length)).length = data.length := by
  simp only [List.length_append, List.length_take, List.length_drop]
  omega

/-- A full buffer. -/
theorem filled {data : Bytes} {offset : Nat} (h : offset + chunk.length = data.length) :
    data.take offset ++ chunk ++ data.drop (offset + chunk.length) = data.take offset ++ chunk := by
  rw [List.drop_eq_nil_of_le (by omega), List.append_nil]

/-- `recv_into` keeps the place in the stream, whatever it returns. -/
theorem recvInto (hframes : Bounded maxFrameBytes frames) (htail : EndsFrames maxFrameBytes tail)
    (hopen : r.failure = none) (hpos : chunk ≠ []) (hle : r.offset + chunk.length ≤ r.data.length)
    (h : Expects frames tail r (chunk ++ rest)) :
    Expects frames tail (r.recvInto maxFrameBytes chunk) rest := by
  cases h with
  | refused _ _ => cases hopen
  | lengthPrefix finished todo hsplit hlen hoffset hconsumed hrest =>
    rename_i data consumed offset
    unfold Receiver.recvInto
    rw [if_neg hpos]
    dsimp only at hle ⊢
    rw [← List.append_assoc] at hrest
    rw [hconsumed, List.append_assoc _ _ chunk]
    by_cases hmore : offset + chunk.length < data.length
    · rw [if_pos hmore]
      apply Expects.lengthPrefix finished todo hsplit
      · rw [length_filled hle, hlen]
      · rwa [length_filled hle]
      · rw [take_filled hle]
      · rwa [take_filled hle]
    · have hfull : offset + chunk.length = data.length := by omega
      have hlen' := length_filled hle
      rw [filled hfull] at hlen'
      rw [if_neg hmore, filled hfull]
      exact lengthReturned hframes htail hsplit (hlen'.trans hlen) hrest
  | body finished todo f hsplit hlen hoffset hconsumed hrest =>
    rename_i data consumed offset
    unfold Receiver.recvInto
    rw [if_neg hpos]
    dsimp only at hle ⊢
    rw [← List.append_assoc] at hrest
    rw [hconsumed, List.append_assoc _ _ chunk]
    by_cases hmore : offset + chunk.length < data.length
    · rw [if_pos hmore]
      apply Expects.body finished todo f hsplit
      · rw [length_filled hle, hlen]
      · rwa [length_filled hle]
      · rw [take_filled hle]
      · rwa [take_filled hle]
    · have hfull : offset + chunk.length = data.length := by omega
      have hlen' := length_filled hle
      rw [filled hfull] at hlen'
      obtain ⟨hbody, hrest'⟩ := List.append_inj hrest (hlen'.trans hlen)
      rw [if_neg hmore, filled hfull, hbody]
      exact bodyReturned hsplit hrest'

/-! ### What the place says -/

theorem frames_isPrefix (h : Expects frames tail r rest) :
    r.frames <+: frames.map PyBytes.data := by
  cases h with
  | lengthPrefix finished todo hsplit =>
    rw [hsplit, List.map_append]
    exact List.prefix_append _ _
  | body finished todo f hsplit =>
    rw [hsplit, List.map_append]
    exact List.prefix_append _ _
  | refused => exact List.prefix_refl _

theorem consumed_append (h : Expects frames tail r rest) :
    r.consumed ++ rest = frames.flatMap PyBytes.wire ++ tail := by
  cases h with
  | lengthPrefix finished todo hsplit _ _ hconsumed hrest =>
    rw [hconsumed, List.append_assoc, hrest, hsplit, List.flatMap_append, List.append_assoc]
  | body finished todo f hsplit _ _ hconsumed hrest =>
    rw [hconsumed, List.append_assoc, hrest, hsplit, List.flatMap_append, List.flatMap_cons,
      PyBytes.wire]
    simp only [List.append_assoc]
  | refused htail => rw [htail, List.append_assoc]

/-- A receiver that has not raised waits for bytes, and has read less than one length
more than the frames. -/
theorem of_open (h : Expects frames tail r rest) (hopen : r.failure = none) :
    r.offset < r.data.length ∧
      r.consumed.length < (frames.flatMap PyBytes.wire).length + framePrefixBytes := by
  cases h with
  | lengthPrefix finished todo hsplit hlen hoffset hconsumed =>
    refine ⟨hoffset, ?_⟩
    rw [hconsumed, hsplit]
    simp only [List.flatMap_append, List.length_append, List.length_take]
    omega
  | body finished todo f hsplit hlen hoffset hconsumed =>
    refine ⟨hoffset, ?_⟩
    rw [hconsumed, hsplit]
    simp only [List.flatMap_append, List.flatMap_cons, PyBytes.wire, List.length_append,
      List.length_take]
    omega
  | refused => cases hopen

/-- With nothing left to read, the receiver has not raised only if no length is left. -/
theorem of_drained (h : Expects frames tail r []) (hopen : r.failure = none) :
    r.frames = frames.map PyBytes.data ∧ tail.length < framePrefixBytes := by
  cases h with
  | refused => cases hopen
  | lengthPrefix finished todo hsplit hlen hoffset _ hrest =>
    have hlength := congrArg List.length hrest
    simp only [List.append_nil, List.length_append, List.length_take] at hlength
    cases todo with
    | nil =>
      rw [hsplit, List.append_nil]
      exact ⟨rfl, by omega⟩
    | cons f todo =>
      simp only [List.flatMap_cons, PyBytes.wire, List.length_append, length_packLength] at hlength
      omega
  | body finished todo f _ hlen hoffset _ hrest =>
    have hlength := congrArg List.length hrest
    simp only [List.append_nil, List.length_append, List.length_take] at hlength
    omega

/-- A receiver that raises has read the frames and one length. -/
theorem of_failure (h : Expects frames tail r rest) {e : PyError} (he : r.failure = some e) :
    framePrefixBytes ≤ tail.length ∧ e = Receiver.oversizeError ∧
      r.frames = frames.map PyBytes.data ∧
      r.consumed = frames.flatMap PyBytes.wire ++ tail.take framePrefixBytes := by
  cases h with
  | lengthPrefix => cases he
  | body => cases he
  | refused htail hlen =>
    rw [htail, List.take_left' hlen, List.length_append]
    exact ⟨by omega, (Option.some.inj he).symm, rfl, rfl⟩

end Expects

/-! ## The link -/

namespace Link

variable {maxFrameBytes : Int} {frames : List PyBytes} {tail : Bytes} {s t : Link}

/-- What the receiver has not read. -/
def unread (s : Link) : Bytes := s.inFlight ++ s.sender.remaining

/-- The sender runs, and the receiver is at its place in the stream. -/
structure Inv (frames : List PyBytes) (tail : Bytes) (s : Link) : Prop where
  runs : s.sender.Runs
  expects : Expects frames tail s.receiver s.unread

theorem Inv.start {messages : List Message}
    (h : messages.flatMap Message.wire = frames.flatMap PyBytes.wire ++ tail) :
    Inv frames tail ⟨Sender.start messages, [], Receiver.fresh⟩ := by
  obtain ⟨hruns, hremaining⟩ := Sender.start_runs messages
  refine ⟨hruns, ?_⟩
  rw [unread, List.nil_append, hremaining, h]
  exact Expects.fresh frames tail

theorem Inv.step (hframes : Bounded maxFrameBytes frames) (htail : EndsFrames maxFrameBytes tail)
    (h : Inv frames tail s) (hstep : Step maxFrameBytes s t) : Inv frames tail t := by
  cases hstep with
  | @send data offset count later hsender hpos hle =>
    obtain ⟨hruns, htaken⟩ := Sender.sent_runs data later hpos hle
    refine ⟨hruns, ?_⟩
    have hexpects := h.expects
    rwa [unread, hsender, ← htaken, ← List.append_assoc] at hexpects
  | @recv count hopen hpos hle hroom =>
    refine ⟨h.runs, ?_⟩
    have hexpects := h.expects
    rw [unread, ← List.take_append_drop count s.inFlight, List.append_assoc] at hexpects
    have hlen : (s.inFlight.take count).length = count := List.length_take_of_le hle
    refine Expects.recvInto hframes htail hopen ?_ (by rwa [hlen]) hexpects
    intro hnil
    rw [hnil, List.length_nil] at hlen
    omega

/-- A byte counts once for each call it has still to go through. -/
def work (s : Link) : Nat := 2 * s.sender.remaining.length + s.inFlight.length

theorem work_step (hstep : Step maxFrameBytes s t) : t.work < s.work := by
  cases hstep with
  | @send data offset count later hsender hpos hle =>
    have htaken := congrArg List.length (Sender.sent_runs data later hpos hle).2
    simp only [List.length_append, List.length_take, List.length_drop] at htaken
    simp only [work, hsender, List.length_append, List.length_take, List.length_drop]
    omega
  | @recv count hopen hpos hle hroom =>
    simp only [work, List.length_drop]
    omega

/-- No run goes on for ever. -/
theorem no_endless_run {messages : List Message} (run : Nat → Link) :
    ¬∀ n, (link maxFrameBytes messages).step (run n) (run (n + 1)) := by
  intro hrun
  have hwork : ∀ n, (run n).work + n ≤ (run 0).work := by
    intro n
    induction n with
    | zero => exact le_refl _
    | succ n ih =>
      have hlt := work_step (hrun n)
      omega
  have h := hwork ((run 0).work + 1)
  omega

/-- On a link without a next step, whose receiver has not raised, everything is sent
and everything is read. -/
theorem Inv.stuck (h : Inv frames tail s) (hstuck : ∀ t, ¬Step maxFrameBytes s t)
    (hopen : s.receiver.failure = none) :
    s.sender = .idle ∧ s.inFlight = [] ∧ Expects frames tail s.receiver [] := by
  have hidle : s.sender = .idle := by
    have hruns := h.runs
    cases hsender : s.sender with
    | idle => rfl
    | raised e =>
      rw [hsender] at hruns
      cases hruns
    | sending data offset later =>
      rw [hsender] at hruns
      exact absurd (.send hsender Nat.one_pos hruns) (hstuck _)
  have hdrained : s.inFlight = [] := by
    by_contra hne
    have hpos := List.length_pos_iff.mpr hne
    have hroom := (h.expects.of_open hopen).1
    exact hstuck _ (.recv hopen Nat.one_pos hpos hroom)
  have hexpects := h.expects
  rw [unread, hidle, hdrained] at hexpects
  exact ⟨hidle, hdrained, hexpects⟩

/-- What holds of every state a run reaches. -/
theorem inv_reachable (hframes : Bounded maxFrameBytes frames)
    (htail : EndsFrames maxFrameBytes tail) {messages : List Message}
    (hmessages : messages.flatMap Message.wire = frames.flatMap PyBytes.wire ++ tail)
    (h : (link maxFrameBytes messages).Reachable s) : Inv frames tail s := by
  apply System.invariant (Inv frames tail) ?_ ?_ h
  · rintro s rfl
    exact Inv.start hmessages
  · intro s t hs hstep
    exact hs.step hframes htail hstep

/-- The receiver has returned all frames and has read all that was sent. -/
structure Delivered (sent : List PyBytes) (s : Link) : Prop where
  frames : s.receiver.frames = sent.map PyBytes.data
  consumed : s.receiver.consumed = sent.flatMap PyBytes.wire
  sender : s.sender = .idle
  inFlight : s.inFlight = []

end Link

/-! ## The results -/

theorem wire_frames (frames : List PyBytes) :
    (frames.map Message.frame).flatMap Message.wire = frames.flatMap PyBytes.wire := by
  rw [List.flatMap_map]
  rfl

/-- However the socket splits what is written and what is read, the frames are
returned in order, and a run ends when all of them are.  A length out of bounds is
refused after its eight bytes, whatever bytes follow. -/
theorem frames_survive_segmentation {maxFrameBytes : Int} {frames : List PyBytes}
    (hframes : Bounded maxFrameBytes frames) :
    (∀ s, (link maxFrameBytes (frames.map .frame)).Reachable s →
      s.receiver.failure = none ∧ s.receiver.frames <+: frames.map PyBytes.data ∧
        ((∀ t, ¬Link.Step maxFrameBytes s t) → Link.Delivered frames s)) ∧
    (∀ encoded body, Refused maxFrameBytes encoded → ∀ s,
      (link maxFrameBytes (frames.map .frame ++ [.raw (encoded ++ body)])).Reachable s →
        s.receiver.frames <+: frames.map PyBytes.data ∧
        (s.receiver.failure = none → s.receiver.consumed.length <
          (frames.flatMap PyBytes.wire).length + framePrefixBytes) ∧
        (∀ e, s.receiver.failure = some e → e = Receiver.oversizeError ∧
          s.receiver.frames = frames.map PyBytes.data ∧
          s.receiver.consumed = frames.flatMap PyBytes.wire ++ encoded) ∧
        ((∀ t, ¬Link.Step maxFrameBytes s t) → s.receiver.failure ≠ none)) ∧
    ∀ (messages : List Message) (run : Nat → Link),
      ¬∀ n, (link maxFrameBytes messages).step (run n) (run (n + 1)) := by
  refine ⟨fun s hs => ?_, fun encoded body hrefused s hs => ?_, fun messages run =>
    Link.no_endless_run run⟩
  · have hinv : Link.Inv frames [] s := by
      apply Link.inv_reachable hframes ?_ ?_ hs
      · intro hle
        cases hle
      · rw [wire_frames, List.append_nil]
    have hopen : s.receiver.failure = none := by
      rw [Option.eq_none_iff_forall_ne_some]
      intro e he
      cases (hinv.expects.of_failure he).1
    refine ⟨hopen, hinv.expects.frames_isPrefix, fun hstuck => ?_⟩
    obtain ⟨hidle, hdrained, hexpects⟩ := hinv.stuck hstuck hopen
    have hconsumed := hexpects.consumed_append
    rw [List.append_nil, List.append_nil] at hconsumed
    exact ⟨(hexpects.of_drained hopen).1, hconsumed, hidle, hdrained⟩
  · have hlen : encoded.length = framePrefixBytes := by
      obtain ⟨size, hparse, -⟩ := hrefused
      by_contra hne
      rw [parseFrameLength, if_pos hne] at hparse
      cases hparse
    have htake : (encoded ++ body).take framePrefixBytes = encoded := List.take_left' hlen
    have hinv : Link.Inv frames (encoded ++ body) s := by
      apply Link.inv_reachable hframes ?_ ?_ hs
      · intro _
        rwa [htake]
      · rw [List.flatMap_append, wire_frames, List.flatMap_singleton, Message.wire]
    refine ⟨hinv.expects.frames_isPrefix, fun hopen => (hinv.expects.of_open hopen).2,
      fun e he => ?_, fun hstuck hopen => ?_⟩
    · have hfailure := (hinv.expects.of_failure he).2
      rwa [htake] at hfailure
    · have hshort := ((hinv.stuck hstuck hopen).2.2.of_drained hopen).2
      rw [List.length_append] at hshort
      omega

/-- Two frames, of the least and the largest length under a bound of three. -/
def twoFrames : List PyBytes := [⟨[0x7B, 0x0A], by decide⟩, ⟨[0x00, 0x00, 0x00], by decide⟩]

theorem frames_survive_segmentation_sample : Bounded 3 twoFrames ∧ Refused 3 (packLength 4) ∧
    (∀ s, (link 3 (twoFrames.map .frame)).Reachable s →
      (∀ t, ¬Link.Step 3 s t) → Link.Delivered twoFrames s) ∧
    ∀ s, (link 3 (twoFrames.map .frame ++ [.raw (packLength 4 ++ [1, 2, 3, 4])])).Reachable s →
      (∀ t, ¬Link.Step 3 s t) → s.receiver.failure ≠ none := by
  have hbounded : Bounded 3 twoFrames := by
    unfold Bounded twoFrames
    simp
  have hrefused : Refused 3 (packLength 4) := ⟨4, rfl, by decide⟩
  obtain ⟨hsent, hraw, -⟩ := frames_survive_segmentation hbounded
  exact ⟨hbounded, hrefused, fun s hs => (hsent s hs).2.2,
    fun s hs => (hraw _ [1, 2, 3, 4] hrefused s hs).2.2.2⟩

end EdgeFort.Ipc
