/-
A request to a child that holds the generation already, where nothing fails by itself: which
frames are exchanged, and when the call returns.
-/
import EdgeFort.Runtime.LoadedGeneration

namespace EdgeFort
namespace Runtime
namespace ProcessRunner
namespace Supervised

open Effect Ipc

variable {ρ : Type} {I : Interpreter} {B : Backend ρ} {limits : WorkerLimits}
  {w : Supervised ρ} {c : Child} {runtime : ρ} {g maxReceive : Int}

/-- The runner's child is alive, holds the runtime of the generation, and nothing is on its
way. -/
structure Serving (w : Supervised ρ) (c : Child) (runtime : ρ) (g : Int) : Prop where
  process : w.host.runner.process = some c
  channel : w.host.runner.channel = some c
  generation : w.host.runner.generation = some g
  alive : c ∈ w.host.alive
  inbox : w.inbox c = []
  stream : w.host.stream c = []
  state : w.state c = ⟨some runtime, some g⟩

theorem Serving.usable (h : w.Serving c runtime g) :
    w.host.runner.usable w.host.alive = true := by
  rw [Fields.usable, h.channel, h.process]
  exact List.contains_iff_mem.mpr h.alive

/-- The load is skipped. -/
theorem Serving.run_load (h : w.Serving c runtime g) {prepared : Prepared}
    (hg : prepared.generation = g) :
    (sem I B limits).run (load I maxReceive prepared) w = (.ok (), w) := by
  have hcheck : (sem I B limits).run startCheck w = (.ok .alive, w) := by
    refine (Sem.run_perform _ _ _).trans ?_
    show onHost .startCheck w = _
    rw [onHost, Host.exec, if_pos h.usable]
    rfl
  have hstart : (sem I B limits).run (start I maxReceive) w = (.ok (), w) :=
    Sem.run_bind_ok hcheck
  have hgeneration : (sem I B limits).run ProcessRunner.generation w = (.ok (some g), w) := by
    refine (Sem.run_perform _ _ _).trans ?_
    show onHost .generation w = _
    rw [onHost, Host.exec, h.generation]
    rfl
  refine (Sem.run_bind_ok hstart).trans ((Sem.run_bind_ok hgeneration).trans ?_)
  rw [if_pos (congrArg some hg.symm)]
  rfl

/-- The next request has been numbered. -/
def numbered (w : Supervised ρ) : Supervised ρ :=
  w.setHost (w.host.setRunner { w.host.runner with requestId := w.host.runner.requestId + 1 })

theorem Serving.numbered (h : w.Serving c runtime g) : w.numbered.Serving c runtime g :=
  ⟨h.process, h.channel, h.generation, h.alive, h.inbox, h.stream, h.state⟩

/-- A handler of transport errors never returns. -/
theorem transportFailed_ne_ok {α : Type} {a : α} (deadlineError : Bool) (closed : PyStr)
    (e : PyError) (w : Supervised ρ) :
    ((sem I B limits).run (transportFailed deadlineError closed e) w).1 ≠ .ok a := by
  have habort : ∀ e' : PyError,
      ((sem I B limits).run (abort >>= fun _ => (throw e' : RunnerProg α)) w).1 ≠ .ok a := by
    intro e' h
    obtain ⟨_, w', -, hthrow⟩ := Sem.run_bind_eq_ok.mp h
    cases hthrow
  unfold transportFailed
  by_cases htime : e.cls = .timeoutError
  · rw [if_pos htime]
    exact habort _
  · rw [if_neg htime]
    by_cases hclosed : e.cls = .eofError ∨ e.cls = .osError ∨ e.cls = .ipcProtocolError
    · rw [if_pos hclosed]
      exact habort _
    · rw [if_neg hclosed]
      intro h
      cases h

theorem Serving.run_sendFrame (h : w.Serving c runtime g) {frame : Bytes} {deadlineError : Bool}
    {w' : Supervised ρ} :
    (sem I B limits).run (sendFrame frame deadlineError) w = (.ok (), w') ↔
      (frame.length : Int) ≤ maxUint ∧ w' = w.post c frame := by
  have husable : (sem I B limits).run ProcessRunner.usable w = (.ok true, w) := by
    refine (Sem.run_perform _ _ _).trans ?_
    show onHost .usable w = _
    rw [onHost, Host.exec, h.usable]
    rfl
  have hsend : (sem I B limits).run (send frame) w =
      if maxUint < (frame.length : Int) then (.error (protocolError "invalid IPC frame size"), w)
      else (.ok (), w.post c frame) := by
    refine (Sem.run_perform _ _ _).trans ?_
    show exec I B limits (.send frame) w = _
    simp only [exec, h.channel]
    rfl
  have hrun : (sem I B limits).run (sendFrame frame deadlineError) w =
      (sem I B limits).run ((send frame).catch' (transportFailed deadlineError
        "isolated inference worker transport failed")) w := Sem.run_bind_ok husable
  rw [hrun, Sem.run_catch, hsend]
  split_ifs with hlen
  · refine iff_of_false (fun hok => ?_) fun hok => absurd hlen (Int.not_lt.mpr hok.1)
    exact transportFailed_ne_ok _ _ _ _ (congrArg Prod.fst hok)
  · rw [Prod.mk.injEq]
    exact ⟨fun hok => ⟨Int.not_lt.mp hlen, hok.2.symm⟩, fun hok => ⟨rfl, hok.2.symm⟩⟩

/-- The child takes up the frame it was sent. -/
theorem Serving.settled_post (h : w.Serving c runtime g) (frame : Bytes) :
    settled I B limits (w.post c frame) =
      match respond I B limits ⟨some runtime, some g⟩ frame with
      | none => (w.post c frame).ended c
      | some (reply, s) => (w.post c frame).answered c [] reply s := by
  have hinbox : (w.post c frame).inbox c = [frame] := by
    show Function.update w.inbox c _ c = _
    rw [Function.update_self, h.inbox, List.nil_append]
  have hstate : (w.post c frame).state c = ⟨some runtime, some g⟩ := h.state
  have hchannel : (w.post c frame).host.runner.channel = some c := h.channel
  have halive : c ∈ (w.post c frame).host.alive := h.alive
  rw [settled, hchannel]
  dsimp only
  rw [settle, hinbox]
  show serveNext I B limits c (w.post c frame) = _
  cases hrespond : respond I B limits ⟨some runtime, some g⟩ frame with
  | none => simp only [serveNext, hinbox, if_pos halive, hstate, hrespond]
  | some r => simp only [serveNext, hinbox, if_pos halive, hstate, hrespond]

theorem run_recvExact (size : Nat) : (sem I B limits).run (recvExact size) w =
    onHost (.recvExact size) (settled I B limits w) :=
  Sem.run_perform _ _ _

/-- What is left when some bytes of the child have been read. -/
theorem onHost_recvExact (hc : w.host.runner.channel = some c) (size : Nat) :
    onHost (.recvExact size) w = if size ≤ (w.host.stream c).length then
      (.ok ((w.host.stream c).take size),
        w.setHost (w.host.setStream c ((w.host.stream c).drop size)))
    else (.error closedError, w.setHost ((w.host.setStream c []).fails (α := Bytes)
      closedError).2) := by
  simp only [onHost, Host.exec, Host.recvExact, hc]
  split_ifs <;> rfl

/-! ## The reply -/

/-- A child with nothing to read is settled. -/
theorem settled_of_nil (hc : w.host.runner.channel = some c) (hinbox : w.inbox c = []) :
    settled I B limits w = w := by
  simp only [settled, hc, settle, hinbox]
  rfl

/-- The one frame on its way is read. -/
theorem run_socketRecvFrame_framed (hc : w.host.runner.channel = some c)
    (hinbox : (settled I B limits w).inbox c = []) {reply : Bytes}
    (hstream : (settled I B limits w).host.stream c = framed reply)
    (hmax : (reply.length : Int) ≤ maxUint) {a : Bytes} :
    ((sem I B limits).run (socketRecvFrame maxReceive) w).1 = .ok a ↔
      a = reply ∧ 2 ≤ reply.length ∧ (reply.length : Int) ≤ maxReceive := by
  have hc₁ : (settled I B limits w).host.runner.channel = some c := by
    rw [(drift_settled w).undisturbed.runner]
    exact hc
  have hlen : framePrefixBytes ≤ ((settled I B limits w).host.stream c).length := by
    rw [hstream, length_framed]
    exact Nat.le_add_right 8 _
  have hprefix : (sem I B limits).run (recvExact framePrefixBytes) w =
      (.ok (packLength reply.length), (settled I B limits w).setHost
        ((settled I B limits w).host.setStream c reply)) := by
    rw [run_recvExact, onHost_recvExact hc₁, if_pos hlen, hstream, framed,
      List.take_left' (length_packLength _), List.drop_left' (length_packLength _)]
    rfl
  generalize hw₂ : (settled I B limits w).setHost ((settled I B limits w).host.setStream c reply) =
    w₂ at hprefix
  have hc₂ : w₂.host.runner.channel = some c := hw₂ ▸ hc₁
  have hstream₂ : w₂.host.stream c = reply := by
    rw [← hw₂]
    exact Function.update_self _ _ _
  have hsettled₂ : settled I B limits w₂ = w₂ := settled_of_nil hc₂ (hw₂ ▸ hinbox)
  have hbody : ((sem I B limits).run (recvExact reply.length) w₂).1 = .ok reply := by
    rw [run_recvExact, hsettled₂, onHost_recvExact hc₂, hstream₂, if_pos (le_refl _),
      List.take_length]
    rfl
  have hsize : (sem I B limits).run (parseFrameLength (packLength reply.length) :
      RunnerProg Nat) w₂ = (.ok reply.length, w₂) := by
    rw [Sem.run_liftM, parseFrameLength_packLength hmax]
  rw [socketRecvFrame, Sem.run_bind_ok hprefix, Sem.run_bind_ok hsize]
  by_cases hbounds : (reply.length : Int) < 2 ∨ maxReceive < reply.length
  · have hraise : (sem I B limits).run (raiseIf ((reply.length : Int) < 2 ∨
        maxReceive < reply.length) Receiver.oversizeError : RunnerProg Unit) w₂ =
        (.error Receiver.oversizeError, w₂) := by
      rw [Sem.run_liftM, raiseIf, if_pos hbounds]
    rw [Sem.run_bind_error hraise]
    refine iff_of_false (fun hok => ?_) fun hok => by omega
    cases hok
  · have hpass : (sem I B limits).run (raiseIf ((reply.length : Int) < 2 ∨
        maxReceive < reply.length) Receiver.oversizeError : RunnerProg Unit) w₂ = (.ok (), w₂) := by
      rw [Sem.run_liftM, raiseIf, if_neg hbounds]
    rw [Sem.run_bind_ok hpass, hbody]
    constructor
    · intro hok
      exact ⟨(Except.ok.inj hok).symm, by omega, by omega⟩
    · rintro ⟨rfl, -, -⟩
      rfl

/-- The reply that the runner reads. -/
theorem Serving.run_receiveFrame (h : w.Serving c runtime g) {frame reply : Bytes}
    {deadlineError : Bool} :
    ((sem I B limits).run (receiveFrame maxReceive deadlineError) (w.post c frame)).1 =
        .ok reply ↔
      (∃ s, respond I B limits ⟨some runtime, some g⟩ frame = some (reply, s)) ∧
        2 ≤ reply.length ∧ (reply.length : Int) ≤ maxReceive := by
  have hc : (w.post c frame).host.runner.channel = some c := h.channel
  have hconnected : (sem I B limits).run connected (w.post c frame) =
      (.ok true, w.post c frame) := by
    refine (Sem.run_perform _ _ _).trans ?_
    show onHost .connected (w.post c frame) = _
    have hp : (w.post c frame).host.runner.process = some c := h.process
    rw [onHost, Host.exec, hc, hp]
    rfl
  have hrun : (sem I B limits).run (receiveFrame maxReceive deadlineError) (w.post c frame) =
      (sem I B limits).run ((socketRecvFrame maxReceive).catch' (transportFailed deadlineError
        "isolated inference worker exited or violated IPC protocol")) (w.post c frame) :=
    Sem.run_bind_ok hconnected
  rw [hrun, Sem.run_catch_eq_ok fun e w' => transportFailed_ne_ok _ _ e w']
  have hsettled : settled I B limits (w.post c frame) = _ := h.settled_post frame
  cases hrespond : respond I B limits ⟨some runtime, some g⟩ frame with
  | none =>
    rw [hrespond] at hsettled
    have hstream : ((w.post c frame).ended c).host.stream c = [] := h.stream
    have hread : ((sem I B limits).run (recvExact framePrefixBytes) (w.post c frame)).1 =
        .error closedError := by
      rw [run_recvExact, hsettled]
      dsimp only
      rw [onHost_recvExact (w := (w.post c frame).ended c) hc, hstream,
        if_neg (show ¬framePrefixBytes ≤ ([] : Bytes).length by decide)]
      rfl
    refine iff_of_false (fun hok => ?_) fun hok => ?_
    · obtain ⟨_, _, hread', -⟩ := Sem.run_bind_eq_ok.mp hok
      rw [hread'] at hread
      cases hread
    · obtain ⟨⟨_, hnone⟩, -⟩ := hok
      cases hnone
  | some answer =>
    obtain ⟨answer, s⟩ := answer
    rw [hrespond] at hsettled
    have hinbox : (settled I B limits (w.post c frame)).inbox c = [] := by
      rw [hsettled]
      exact Function.update_self _ _ _
    have hstream : (settled I B limits (w.post c frame)).host.stream c = framed answer := by
      rw [hsettled]
      refine (Function.update_self _ _ _).trans ?_
      show (w.host.stream c) ++ framed answer = _
      rw [h.stream, List.nil_append]
    rw [run_socketRecvFrame_framed hc hinbox hstream (respond_eq_some hrespond).2]
    constructor
    · rintro ⟨rfl, hbounds⟩
      exact ⟨⟨s, rfl⟩, hbounds⟩
    · rintro ⟨⟨s', hreply⟩, hbounds⟩
      obtain ⟨rfl, -⟩ := Prod.mk.inj (Option.some.inj hreply)
      exact ⟨rfl, hbounds⟩

/-! ## The whole request -/

/-- The reply carries the logits of a request. -/
def Carries (I : Interpreter) (reply : Bytes) (request : Int) (batch : Nat) (output : OutputLimits)
    (array : NdArray UInt32) : Prop :=
  ∃ header payload, decodeFrame I reply (output.maxOutputValues * 4) = .ok (header, payload) ∧
    isOp header (py "result") = true ∧
      decodeResult I reply request batch output.maxOutputClasses output.maxOutputValues = .ok array

theorem run_readResult {request : Int} {batch : Nat} {output : OutputLimits} {reply : Bytes}
    {array : NdArray UInt32} :
    ((sem I B limits).run (readResult I request batch output reply) w).1 = .ok array ↔
      Carries I reply request batch output array := by
  unfold readResult
  rw [Sem.run_bind_eq_ok]
  constructor
  · rintro ⟨⟨header, payload⟩, w', hdecoded, hrest⟩
    rw [Sem.run_liftM] at hdecoded
    obtain ⟨hheader, rfl⟩ := Prod.mk.inj hdecoded
    dsimp only at hrest
    by_cases hresult : isOp header (py "result") = true
    · rw [if_pos hresult, Sem.run_liftM] at hrest
      exact ⟨header, payload, hheader, hresult, hrest⟩
    · rw [if_neg hresult] at hrest
      by_cases herror : isOp header (py "error") = true
      · rw [if_pos herror] at hrest
        obtain ⟨⟨id, code, message⟩, w₁, -, hraise⟩ := Sem.run_bind_eq_ok.mp hrest
        obtain ⟨_, w₂, -, hthrow⟩ := Sem.run_bind_eq_ok.mp hraise
        cases hthrow
      · rw [if_neg herror] at hrest
        cases hrest
  · rintro ⟨header, payload, hdecoded, hresult, harray⟩
    refine ⟨(header, payload), w, ?_, ?_⟩
    · rw [Sem.run_liftM, hdecoded]
    · dsimp only
      rw [if_pos hresult, Sem.run_liftM, harray]

theorem Serving.run_execute (h : w.Serving c runtime g) {prepared : Prepared}
    (hg : prepared.generation = g) {output : OutputLimits} {array : NdArray UInt32} :
    ((sem I B limits).run (execute I maxReceive prepared output) w).1 = .ok array ↔
      ∃ frame reply, encodePredict I ⟨w.host.runner.requestId + 1, g, prepared.inputs⟩ =
          .ok frame ∧ (frame.length : Int) ≤ maxUint ∧
        (∃ s, respond I B limits ⟨some runtime, some g⟩ frame = some (reply, s)) ∧
        2 ≤ reply.length ∧ (reply.length : Int) ≤ maxReceive ∧
        Carries I reply (w.host.runner.requestId + 1) prepared.batch output array := by
  have hnext : (sem I B limits).run nextRequest w =
      (.ok (w.host.runner.requestId + 1), w.numbered) := Sem.run_perform _ _ _
  rw [execute, Sem.run_bind_ok (h.run_load hg), Sem.run_bind_ok hnext, hg]
  cases hencode : encodePredict I ⟨w.host.runner.requestId + 1, g, prepared.inputs⟩ with
  | error e =>
    refine iff_of_false (fun hok => ?_) fun hok => ?_
    · cases hok
    · obtain ⟨_, _, hframe, -⟩ := hok
      cases hframe
  | ok frame =>
    have hhandler : ∀ (reply : Bytes) (w₁ : Supervised ρ),
        ((sem I B limits).run ((readResult I (w.host.runner.requestId + 1) prepared.batch output
          reply).catch' fun e =>
            if e.cls = .ipcProtocolError then do
              abort
              throw (raise .backendProcessError
                "isolated inference worker returned an invalid response")
            else throw e) w₁).1 = .ok array ↔
          Carries I reply (w.host.runner.requestId + 1) prepared.batch output array := by
      intro reply w₁
      rw [Sem.run_catch_eq_ok, run_readResult]
      intro e w₂ hok
      by_cases hprotocol : e.cls = .ipcProtocolError
      · rw [if_pos hprotocol] at hok
        obtain ⟨_, w₃, -, hthrow⟩ := Sem.run_bind_eq_ok.mp hok
        cases hthrow
      · rw [if_neg hprotocol] at hok
        cases hok
    show ((sem I B limits).run (sendInputs I maxReceive (w.host.runner.requestId + 1)
      prepared.batch output frame) w.numbered).1 = .ok array ↔ _
    rw [sendInputs, Sem.run_bind_eq_ok]
    constructor
    · rintro ⟨_, w₁, hsend, hrest⟩
      obtain ⟨hmax, rfl⟩ := h.numbered.run_sendFrame.mp hsend
      obtain ⟨reply, w₂, hreceive, hread⟩ := Sem.run_bind_eq_ok.mp hrest
      obtain ⟨hrespond, hlow, hhigh⟩ :=
        h.numbered.run_receiveFrame.mp (congrArg Prod.fst hreceive)
      exact ⟨frame, reply, rfl, hmax, hrespond, hlow, hhigh, (hhandler reply w₂).mp hread⟩
    · rintro ⟨_, reply, hframe, hmax, hrespond, hlow, hhigh, hcarries⟩
      obtain rfl := Except.ok.inj hframe
      refine ⟨(), _, h.numbered.run_sendFrame.mpr ⟨hmax, rfl⟩, ?_⟩
      have hreceive : ((sem I B limits).run (receiveFrame maxReceive true)
          (w.numbered.post c frame)).1 = .ok reply :=
        h.numbered.run_receiveFrame.mpr ⟨hrespond, hlow, hhigh⟩
      exact Sem.run_bind_eq_ok.mpr ⟨reply, _, Prod.ext hreceive rfl, (hhandler reply _).mpr hcarries⟩

end Supervised
end ProcessRunner
end Runtime
end EdgeFort
