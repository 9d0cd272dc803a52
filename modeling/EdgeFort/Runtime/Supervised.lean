/-
A runner and children that run `_isolated_backend_main` (`runtime.py`).

A child takes up the frames it was sent in its own time: before any operation of the runner
children may have served frames and children may have died.
-/
import EdgeFort.Ipc.Worker
import EdgeFort.Runtime.ReplyCorrelation

namespace EdgeFort
namespace Runtime
namespace ProcessRunner

open Effect Ipc

variable {ρ : Type}

/-- The bytes in `host.stream` are those a child has sent and the runner has not read.  A
child to come has its frame of the handshake there, if it sends one. -/
structure Supervised (ρ : Type) where
  host : Host
  /-- the frames a child has been sent and has not read -/
  inbox : Child → List Bytes
  /-- `runtime` and `generation` of its loop -/
  state : Child → WorkerState ρ

/-- `max_incoming` -/
def maxIncoming (limits : WorkerLimits) : Int := maxHeaderBytes + 1 + maxPayload limits

namespace Supervised

def setHost (w : Supervised ρ) (h : Host) : Supervised ρ := { w with host := h }

/-- The process of a child ends. -/
def ended (w : Supervised ρ) (c : Child) : Supervised ρ :=
  w.setHost { w.host with alive := w.host.alive.erase c }

def post (w : Supervised ρ) (c : Child) (frame : Bytes) : Supervised ρ :=
  { w with inbox := Function.update w.inbox c (w.inbox c ++ [frame]) }

/-- A child has read a frame and sent its response. -/
def answered (w : Supervised ρ) (c : Child) (rest : List Bytes) (response : Bytes)
    (s : WorkerState ρ) : Supervised ρ where
  host := w.host.setStream c (w.host.stream c ++ framed response)
  inbox := Function.update w.inbox c rest
  state := Function.update w.state c s

section

variable (I : Interpreter) (B : Backend ρ) (limits : WorkerLimits)

/-- What a child makes of a frame, unless its loop ends. -/
def respond (s : WorkerState ρ) (frame : Bytes) : Option (Bytes × WorkerState ρ) :=
  if (frame.length : Int) < 2 ∨ maxIncoming limits < frame.length then none
  else
    match serve I B limits s frame with
    | .ends => none
    | .reply response s' => if maxUint < (response.length : Int) then none else some (response, s')

/-- A child takes up the next frame. -/
def serveNext (c : Child) (w : Supervised ρ) : Supervised ρ :=
  match w.inbox c with
  | [] => w
  | frame :: rest =>
    if c ∈ w.host.alive then
      match respond I B limits (w.state c) frame with
      | none => w.ended c
      | some (response, s) => w.answered c rest response s
    else w

/-- A child takes up all the frames it was sent. -/
def settle (c : Child) (w : Supervised ρ) : Supervised ρ :=
  (serveNext I B limits c)^[(w.inbox c).length] w

/-- The child at the other end of the runner's socket settles. -/
def settled (w : Supervised ρ) : Supervised ρ :=
  match w.host.runner.channel with
  | none => w
  | some c => settle I B limits c w

/-- An operation that children have no part in. -/
def onHost (o : Op) (w : Supervised ρ) : Except PyError (Res o) × Supervised ρ :=
  ((Host.exec o w.host).1, w.setHost (Host.exec o w.host).2)

def exec : (o : Op) → Supervised ρ → Except PyError (Res o) × Supervised ρ
  | .send frame, w =>
    match w.host.runner.channel with
    | none => (.error closedError, w)
    | some c =>
      if maxUint < (frame.length : Int) then (.error (protocolError "invalid IPC frame size"), w)
      else (.ok (), w.post c frame)
  | .recvExact size, w => onHost (.recvExact size) (settled I B limits w)
  | o, w => onHost o w

/-- What children do by themselves. -/
inductive Move (w : Supervised ρ) : Supervised ρ → Prop
  | serves (c : Child) : Move w (serveNext I B limits c w)
  | ends (c : Child) : Move w (w.ended c)

def Drift : Supervised ρ → Supervised ρ → Prop :=
  Relation.ReflTransGen fun w w' => Move I B limits w w'

/-- The other answers: children have gone on, no child can be started, and an operation on
the socket raises, a reception after any part of the bytes. -/
inductive Fault (w : Supervised ρ) : (o : Op) → Except PyError (Res o) × Supervised ρ → Prop
  | drifts {o : Op} {w' : Supervised ρ} : Drift I B limits w w' → Fault w o (exec I B limits o w')
  | spawn {w' : Supervised ρ} (e : PyError) : Drift I B limits w w' →
      Fault w .spawn (.error e, w')
  | send {frame : Bytes} {w' : Supervised ρ} {e : PyError} : Host.isSocketError e →
      Drift I B limits w w' → Fault w (.send frame) (.error e, w')
  | recv {size : Nat} {w' : Supervised ρ} {e : PyError} {c : Child} (n : Nat) :
      Host.isSocketError e → Drift I B limits w w' → w'.host.runner.channel = some c →
      Fault w (.recvExact size)
        (.error e, w'.setHost (w'.host.setStream c ((w'.host.stream c).drop n)))

def sem : Sem Op Res PyError (Supervised ρ) where
  exec := exec I B limits
  fault o w x := Fault I B limits w o x

end

variable {I : Interpreter} {B : Backend ρ} {limits : WorkerLimits} {w w' : Supervised ρ}
  {c d : Child}

/-! ## What children do by themselves -/

/-- The runner is left alone, and a child with nothing to read does nothing. -/
structure Undisturbed (w w' : Supervised ρ) : Prop where
  runner : w'.host.runner = w.host.runner
  spawned : w'.host.spawned = w.host.spawned
  alive : w'.host.alive.Sublist w.host.alive
  quiet : ∀ c, w.inbox c = [] →
    w'.inbox c = [] ∧ w'.state c = w.state c ∧ w'.host.stream c = w.host.stream c

theorem Undisturbed.refl (w : Supervised ρ) : Undisturbed w w :=
  ⟨rfl, rfl, List.Sublist.refl _, fun _ h => ⟨h, rfl, rfl⟩⟩

theorem Undisturbed.trans {w'' : Supervised ρ} (h : Undisturbed w w') (h' : Undisturbed w' w'') : Undisturbed w w'' where
  runner := h'.runner.trans h.runner
  spawned := h'.spawned.trans h.spawned
  alive := h'.alive.trans h.alive
  quiet c hc := by
    obtain ⟨hinbox, hstate, hstream⟩ := h.quiet c hc
    obtain ⟨hinbox', hstate', hstream'⟩ := h'.quiet c hinbox
    exact ⟨hinbox', hstate'.trans hstate, hstream'.trans hstream⟩

theorem undisturbed_ended (w : Supervised ρ) (c : Child) : Undisturbed w (w.ended c) :=
  ⟨rfl, rfl, List.erase_sublist, fun _ h => ⟨h, rfl, rfl⟩⟩

theorem undisturbed_answered {frame : Bytes} {rest : List Bytes} (hinbox : w.inbox c = frame :: rest)
    (response : Bytes) (s : WorkerState ρ) : Undisturbed w (w.answered c rest response s) where
  runner := rfl
  spawned := rfl
  alive := List.Sublist.refl _
  quiet d hd := by
    have hne : d ≠ c := by
      rintro rfl
      rw [hinbox] at hd
      cases hd
    refine ⟨?_, Function.update_of_ne hne _ _, Function.update_of_ne hne _ _⟩
    exact (Function.update_of_ne hne _ _).trans hd

/-- A child is not disturbed by another. -/
theorem serveNext_ne (I : Interpreter) (B : Backend ρ) (limits : WorkerLimits) (h : c ≠ d)
    (w : Supervised ρ) :
    (serveNext I B limits d w).inbox c = w.inbox c ∧
      (serveNext I B limits d w).state c = w.state c ∧
      (serveNext I B limits d w).host.stream c = w.host.stream c := by
  unfold serveNext
  split
  · exact ⟨rfl, rfl, rfl⟩
  · split_ifs
    · split
      · exact ⟨rfl, rfl, rfl⟩
      · exact ⟨Function.update_of_ne h _ _, Function.update_of_ne h _ _,
          Function.update_of_ne h _ _⟩
    · exact ⟨rfl, rfl, rfl⟩

theorem undisturbed_serveNext (c : Child) (w : Supervised ρ) : Undisturbed w (serveNext I B limits c w) := by
  unfold serveNext
  split
  · exact Undisturbed.refl w
  · rename_i frame rest hinbox
    split_ifs
    · split
      · exact undisturbed_ended w c
      · exact undisturbed_answered hinbox _ _
    · exact Undisturbed.refl w

theorem Drift.undisturbed (h : Drift I B limits w w') : Undisturbed w w' := by
  induction h with
  | refl => exact Undisturbed.refl w
  | tail _ hmove ih =>
    cases hmove with
    | serves c => exact ih.trans (undisturbed_serveNext c _)
    | ends c => exact ih.trans (undisturbed_ended _ c)

theorem drift_settle (c : Child) (w : Supervised ρ) : Drift I B limits w (settle I B limits c w) := by
  unfold settle
  generalize (w.inbox c).length = n
  induction n generalizing w with
  | zero => exact Relation.ReflTransGen.refl
  | succ n ih =>
    rw [Function.iterate_succ_apply]
    exact Relation.ReflTransGen.head (.serves c) (ih _)

theorem drift_settled (w : Supervised ρ) : Drift I B limits w (settled I B limits w) := by
  unfold settled
  split
  · exact Relation.ReflTransGen.refl
  · exact drift_settle _ w

/-! ## Outcomes -/

/-- An operation that children disturb only by going on. -/
theorem outcome_drift {o : Op} {x : Except PyError (Res o) × Supervised ρ}
    (h : (sem I B limits).Outcome o w x) (hspawn : o ≠ .spawn) (hsend : ∀ frame, o ≠ .send frame)
    (hrecv : ∀ size, o ≠ .recvExact size) :
    ∃ w', Drift I B limits w w' ∧ x = onHost o w' := by
  have hexec : ∀ w', exec I B limits o w' = onHost o w' := by
    intro w'
    cases o with
    | send frame => exact absurd rfl (hsend frame)
    | recvExact size => exact absurd rfl (hrecv size)
    | _ => rfl
  rcases h with rfl | h
  · exact ⟨w, Relation.ReflTransGen.refl, hexec w⟩
  · cases h with
    | drifts hdrift => exact ⟨_, hdrift, hexec _⟩
    | spawn => exact absurd rfl hspawn
    | send => exact absurd rfl (hsend _)
    | recv => exact absurd rfl (hrecv _)

end Supervised

end ProcessRunner
end Runtime
end EdgeFort
