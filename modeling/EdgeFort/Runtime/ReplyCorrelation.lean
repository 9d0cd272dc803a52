/-
A reply is returned only to the request it answers.

The child may send any bytes.  A call that fails leaves no connection behind, unless the
frame it failed by was whole, of the right kind and for this very call; so the bytes of a
failed exchange are never read, and the next reply starts where the last one ended.
-/
import EdgeFort.Effect.Frame
import EdgeFort.Runtime.ProcessRunner

namespace EdgeFort
namespace Runtime
namespace ProcessRunner

open Effect Ipc

/-! ## A runner and its children -/

/-- A runner, the children alive, how many there have been, and the bytes of each child
that nobody has read.  `broken` is read by no operation: how many sends and receptions have
raised. -/
structure Host where
  runner : Fields
  alive : List Child
  spawned : Nat
  stream : Child → Bytes
  broken : Nat

namespace Host

def setRunner (w : Host) (r : Fields) : Host := { w with runner := r }

/-- What is left of the stream of a child. -/
def setStream (w : Host) (c : Child) (rest : Bytes) : Host :=
  { w with stream := Function.update w.stream c rest }

/-- An operation on the socket raises. -/
def fails (w : Host) (e : PyError) {α : Type} : Except PyError α × Host :=
  (.error e, { w with broken := w.broken + 1 })

/-- The second section of `start`. -/
def spawn (w : Host) : Except PyError Bool × Host :=
  if w.runner.usable w.alive then (.ok false, w)
  else (.ok true, { w with runner := w.runner.spawned w.spawned
                           alive := w.spawned :: w.alive
                           spawned := w.spawned + 1 })

/-- `_socket_recv_exact`, where the child has sent all it is going to send. -/
def recvExact (w : Host) (size : Nat) : Except PyError Bytes × Host :=
  match w.runner.channel with
  | none => w.fails closedError
  | some c =>
    if size ≤ (w.stream c).length then
      (.ok ((w.stream c).take size), w.setStream c ((w.stream c).drop size))
    else (w.setStream c []).fails closedError

def exec : (o : Op) → Host → Except PyError (Res o) × Host
  | .startCheck, w =>
    if w.runner.usable w.alive then (.ok .alive, w)
    else (.ok (.stale w.runner.process), w.setRunner w.runner.detached)
  | .reap _, w => (.ok (), w)
  | .spawn, w => w.spawn
  | .connected, w => (.ok (w.runner.channel.isSome && w.runner.process.isSome), w)
  | .usable, w => (.ok (w.runner.usable w.alive), w)
  | .send _, w => (.ok (), w)
  | .recvExact size, w => w.recvExact size
  | .detach, w => (.ok w.runner.process, w.setRunner w.runner.detached)
  | .kill c, w => (.ok (), { w with alive := w.alive.erase c })
  | .generation, w => (.ok w.runner.generation, w)
  | .setGeneration g, w => (.ok (), w.setRunner { w.runner with generation := some g })
  | .nextRequest, w =>
    (.ok (w.runner.requestId + 1), w.setRunner { w.runner with requestId := w.runner.requestId + 1 })

/-- What an operation on a socket may raise. -/
def isSocketError (e : PyError) : Prop :=
  e.cls = .timeoutError ∨ e.cls = .eofError ∨ e.cls = .osError ∨ e.cls = .ipcProtocolError

/-- The other answers: children have died, no child can be started, and an operation on
the socket raises, a reception after any part of the bytes. -/
inductive Fault (w : Host) : (o : Op) → Except PyError (Res o) × Host → Prop
  | dies {o : Op} {alive : List Child} : alive.Sublist w.alive →
      Fault w o (exec o { w with alive := alive })
  | spawn (e : PyError) : Fault w .spawn (.error e, w)
  | send {frame : Bytes} {e : PyError} : isSocketError e → Fault w (.send frame) (w.fails e)
  | recv {size : Nat} {e : PyError} {c : Child} (n : Nat) : isSocketError e →
      w.runner.channel = some c →
      Fault w (.recvExact size) ((w.setStream c ((w.stream c).drop n)).fails e)

def sem : Sem Op Res PyError Host where
  exec := exec
  fault o w x := Fault w o x

end Host

/-! ## What every operation does -/

/-- Streams are read from the front, a connection that was given up is not read again, and
request ids and failures are counted up. -/
structure Later (w w' : Host) : Prop where
  spawned : w.spawned ≤ w'.spawned
  stream : ∀ c, w'.stream c <:+ w.stream c
  closed : ∀ c < w.spawned, w.runner.channel ≠ some c →
    w'.runner.channel ≠ some c ∧ w'.stream c = w.stream c
  requestId : w.runner.requestId ≤ w'.runner.requestId
  broken : w.broken ≤ w'.broken

namespace Later

variable {w w' w'' : Host}

theorem refl (w : Host) : Later w w :=
  ⟨le_refl _, fun _ => List.suffix_refl _, fun _ _ h => ⟨h, rfl⟩, le_refl _, le_refl _⟩

theorem trans (h : Later w w') (h' : Later w' w'') : Later w w'' where
  spawned := h.spawned.trans h'.spawned
  stream c := (h'.stream c).trans (h.stream c)
  closed c hc hne := by
    obtain ⟨hne', hsame⟩ := h.closed c hc hne
    obtain ⟨hne'', hsame'⟩ := h'.closed c (hc.trans_le h.spawned) hne'
    exact ⟨hne'', hsame'.trans hsame⟩
  requestId := h.requestId.trans h'.requestId
  broken := h.broken.trans h'.broken

/-- The runner's fields change, with no new connection. -/
theorem setRunner (w : Host) {r : Fields}
    (hchannel : r.channel = none ∨ r.channel = w.runner.channel)
    (hid : w.runner.requestId ≤ r.requestId) : Later w (w.setRunner r) where
  spawned := le_refl _
  stream _ := List.suffix_refl _
  closed c _ hne := by
    refine ⟨?_, rfl⟩
    rcases hchannel with h | h
    · show r.channel ≠ some c
      rw [h]
      exact Option.some_ne_none c |>.symm
    · show r.channel ≠ some c
      rw [h]
      exact hne
  requestId := hid
  broken := le_refl _

/-- Some bytes of the connection are read. -/
theorem setStream {c : Child} (hc : w.runner.channel = some c) {rest : Bytes}
    (hrest : rest <:+ w.stream c) : Later w (w.setStream c rest) where
  spawned := le_refl _
  stream d := by
    show Function.update w.stream c rest d <:+ w.stream d
    by_cases hd : d = c
    · subst hd
      rwa [Function.update_self]
    · rw [Function.update_of_ne hd]
  closed d _ hne := by
    refine ⟨hne, Function.update_of_ne (fun hd => hne ?_) _ _⟩
    rw [hd]
    exact hc
  requestId := le_refl _
  broken := le_refl _

theorem fails (w : Host) : Later w { w with broken := w.broken + 1 } :=
  ⟨le_refl _, fun _ => List.suffix_refl _, fun _ _ h => ⟨h, rfl⟩, le_refl _, Nat.le_succ _⟩

theorem alive (w : Host) (alive : List Child) : Later w { w with alive := alive } :=
  ⟨le_refl _, fun _ => List.suffix_refl _, fun _ _ h => ⟨h, rfl⟩, le_refl _, le_refl _⟩

theorem spawn (w : Host) : Later w w.spawn.2 := by
  unfold Host.spawn
  split_ifs
  · exact refl w
  · refine ⟨Nat.le_succ _, fun _ => List.suffix_refl _, fun c hc _ => ⟨?_, rfl⟩, le_refl _,
      le_refl _⟩
    show some w.spawned ≠ some c
    rw [ne_eq, Option.some.injEq]
    exact Nat.ne_of_gt hc

theorem recvExact (w : Host) (size : Nat) : Later w (w.recvExact size).2 := by
  unfold Host.recvExact
  split
  · exact fails w
  · rename_i c hc
    split_ifs
    · exact setStream hc (List.drop_suffix _ _)
    · exact (setStream hc (List.nil_suffix)).trans (fails _)

theorem exec (o : Op) (w : Host) : Later w (Host.exec o w).2 := by
  cases o with
  | startCheck =>
    rw [Host.exec]
    split_ifs
    · exact refl w
    · exact setRunner w (Or.inl rfl) (le_refl _)
  | reap | connected | usable | send | generation => exact refl w
  | spawn => exact spawn w
  | recvExact size => exact recvExact w size
  | detach => exact setRunner w (Or.inl rfl) (le_refl _)
  | kill => exact alive w _
  | setGeneration => exact setRunner w (Or.inr rfl) (le_refl _)
  | nextRequest => exact setRunner w (Or.inr rfl) (Int.le_add_one (le_refl _))

theorem outcome (o : Op) (w : Host) (x : Except PyError (Res o) × Host)
    (h : Host.sem.Outcome o w x) : Later w x.2 := by
  rcases h with rfl | h
  · exact exec o w
  · cases h with
    | dies halive => exact (alive w _).trans (exec o _)
    | spawn => exact refl w
    | send => exact fails w
    | recv n _ hc => exact (setStream hc (List.drop_suffix _ _)).trans (fails _)

end Later

/-! ## Frames of a stream -/

/-- A frame with its length before it. -/
def framed (frame : Bytes) : Bytes := packLength frame.length ++ frame

/-- A frame that `_socket_recv_frame` takes comes in a stream, behind other such frames. -/
inductive FrameOf (maxReceive : Int) : Bytes → Bytes → Prop
  | first {frame rest : Bytes} : 2 ≤ frame.length → (frame.length : Int) ≤ maxReceive →
      FrameOf maxReceive (framed frame ++ rest) frame
  | later {frame rest frame' : Bytes} : 2 ≤ frame.length → (frame.length : Int) ≤ maxReceive →
      FrameOf maxReceive rest frame' → FrameOf maxReceive (framed frame ++ rest) frame'

/-- From every stream whole frames have been read, and no part of another. -/
def FramesRead (maxReceive : Int) (w w' : Host) : Prop :=
  ∀ c, ∃ frames : List Bytes,
    (∀ f ∈ frames, 2 ≤ f.length ∧ (f.length : Int) ≤ maxReceive) ∧
      w.stream c = frames.flatMap framed ++ w'.stream c

/-- The last of the frames that have been read from the connection is this one, and what
follows it is left. -/
def LastRead (maxReceive : Int) (w w' : Host) (frame : Bytes) : Prop :=
  ∃ c, w'.runner.channel = some c ∧ ∃ frames : List Bytes,
    (∀ f ∈ frames ++ [frame], 2 ≤ f.length ∧ (f.length : Int) ≤ maxReceive) ∧
      w.stream c = (frames ++ [frame]).flatMap framed ++ w'.stream c

section

variable {maxReceive : Int} {w w' w'' : Host}

theorem FramesRead.refl (maxReceive : Int) (w : Host) : FramesRead maxReceive w w :=
  fun _ => ⟨[], List.forall_mem_nil _, rfl⟩

theorem FramesRead.trans (h : FramesRead maxReceive w w') (h' : FramesRead maxReceive w' w'') :
    FramesRead maxReceive w w'' := by
  intro c
  obtain ⟨frames, hsizes, hframes⟩ := h c
  obtain ⟨frames', hsizes', hframes'⟩ := h' c
  refine ⟨frames ++ frames', List.forall_mem_append.mpr ⟨hsizes, hsizes'⟩, ?_⟩
  rw [List.flatMap_append, List.append_assoc, ← hframes', hframes]

theorem LastRead.of_framesRead {frame : Bytes} (h : LastRead maxReceive w' w'' frame)
    (hread : FramesRead maxReceive w w') : LastRead maxReceive w w'' frame := by
  obtain ⟨c, hc, frames, hsizes, hframes⟩ := h
  obtain ⟨before, hbefore, hsplit⟩ := hread c
  refine ⟨c, hc, before ++ frames, ?_, ?_⟩
  · rw [List.append_assoc]
    exact List.forall_mem_append.mpr ⟨hbefore, hsizes⟩
  · rw [List.append_assoc, List.flatMap_append, List.append_assoc, ← hframes, hsplit]

end

/-! ## States between calls -/

variable {I : Interpreter} {maxReceive : Int} {w : Host}

/-- The runner has a child and its connection, or neither; and no child to come sends a
header that is nested too deeply. -/
structure Apart (I : Interpreter) (maxReceive : Int) (w : Host) : Prop where
  owns : w.runner.Detached ∨
    ∃ c, w.runner.process = some c ∧ w.runner.channel = some c ∧ c < w.spawned
  future : ∀ c, w.spawned ≤ c → ∀ f, FrameOf maxReceive (w.stream c) f → Shallow I f

/-- Nor does the child there is, whose stream starts with a whole frame. -/
structure Good (I : Interpreter) (maxReceive : Int) (w : Host) : Prop
    extends Apart I maxReceive w where
  current : ∀ c, w.runner.channel = some c → ∀ f, FrameOf maxReceive (w.stream c) f → Shallow I f

/-- The runner has given up its child. -/
def Lost (I : Interpreter) (maxReceive : Int) (w : Host) : Prop :=
  Good I maxReceive w ∧ w.runner.Detached

/-- Nothing has failed since `w`, so only whole frames have been read. -/
structure Fine (I : Interpreter) (maxReceive : Int) (w w' : Host) : Prop where
  good : Good I maxReceive w'
  broken : w'.broken = w.broken
  requestId : w'.runner.requestId = w.runner.requestId
  frames : FramesRead maxReceive w w'

theorem Fine.trans {w w' w'' : Host} (h : Fine I maxReceive w w') (h' : Fine I maxReceive w' w'') :
    Fine I maxReceive w w'' :=
  ⟨h'.good, h'.broken.trans h.broken, h'.requestId.trans h.requestId, h.frames.trans h'.frames⟩

theorem Apart.lost (h : Apart I maxReceive w) :
    Lost I maxReceive (w.setRunner w.runner.detached) := by
  refine ⟨⟨⟨Or.inl (Fields.detached_detached _), h.future⟩, fun c hc => ?_⟩,
    Fields.detached_detached _⟩
  cases hc

theorem Apart.channel_lt (h : Apart I maxReceive w) {c : Child}
    (hc : w.runner.channel = some c) : c < w.spawned := by
  rcases h.owns with hdetached | ⟨d, -, hd, hlt⟩
  · rw [hdetached.channel] at hc
    cases hc
  · obtain rfl := Option.some.inj (hc.symm.trans hd)
    exact hlt

theorem Good.alive (h : Good I maxReceive w) (alive : List Child) :
    Fine I maxReceive w { w with alive := alive } :=
  ⟨⟨⟨h.owns, h.future⟩, h.current⟩, rfl, rfl, .refl _ _⟩

/-! ## Operations -/

/-- Every run of `p` from `w` ends in `Q` or raises in `E`. -/
abbrev Spec {α : Type} (p : RunnerProg α) (Q : α → Host → Prop) (E : PyError → Host → Prop)
    (w : Host) : Prop :=
  wp Host.sem p Q E (fun _ => True) w

/-- An operation that only children can disturb. -/
theorem spec_perform {o : Op} {Q : Res o → Host → Prop} {E : PyError → Host → Prop}
    (h : ∀ x, Host.sem.Outcome o w x →
      (∀ a, x.1 = .ok a → Q a x.2) ∧ ∀ e, x.1 = .error e → E e x.2) :
    Spec (Prog.perform o) Q E w :=
  wp_perform.mpr ⟨trivial, fun x hx => ⟨trivial, h x hx⟩⟩

/-- The outcomes of an operation that does not fail by itself. -/
theorem outcome_dies {o : Op} {x : Except PyError (Res o) × Host} (h : Host.sem.Outcome o w x)
    (hspawn : o ≠ .spawn) (hsend : ∀ frame, o ≠ .send frame) (hrecv : ∀ size, o ≠ .recvExact size) :
    ∃ alive, x = Host.exec o { w with alive := alive } := by
  rcases h with rfl | h
  · exact ⟨w.alive, rfl⟩
  · cases h with
    | dies => exact ⟨_, rfl⟩
    | spawn => exact absurd rfl hspawn
    | send => exact absurd rfl (hsend _)
    | recv => exact absurd rfl (hrecv _)

theorem spec_startCheck (h : Good I maxReceive w) :
    Spec startCheck (fun check w' => Fine I maxReceive w w' ∧
      ∀ p, check = .stale p → w'.runner.Detached) (fun _ _ => False) w := by
  refine spec_perform fun x hx => ?_
  obtain ⟨alive, rfl⟩ := outcome_dies hx nofun nofun nofun
  rw [Host.exec]
  split_ifs
  · refine ⟨fun a ha => ⟨h.alive alive, fun p hp => ?_⟩, nofun⟩
    rw [← Except.ok.inj ha] at hp
    cases hp
  · exact ⟨fun a _ => ⟨⟨((h.alive alive).good.toApart.lost).1, rfl, rfl, .refl _ _⟩,
      fun _ _ => Fields.detached_detached _⟩, nofun⟩

theorem spec_reap (h : Good I maxReceive w) (process : Option Child) :
    Spec (reap process) (fun _ w' => Fine I maxReceive w w' ∧ w'.runner = w.runner)
      (fun _ _ => False) w := by
  refine spec_perform fun x hx => ?_
  obtain ⟨alive, rfl⟩ := outcome_dies hx nofun nofun nofun
  exact ⟨fun _ _ => ⟨h.alive alive, rfl⟩, nofun⟩

theorem Good.spawn (h : Good I maxReceive w) :
    Fine I maxReceive w w.spawn.2 ∧ ∃ b, w.spawn.1 = .ok b := by
  unfold Host.spawn
  split_ifs
  · exact ⟨⟨h, rfl, rfl, .refl _ _⟩, _, rfl⟩
  · refine ⟨⟨⟨⟨Or.inr ⟨w.spawned, rfl, rfl, Nat.lt_succ_self _⟩, fun c hc => ?_⟩, fun c hc => ?_⟩,
      rfl, rfl, .refl _ _⟩, _, rfl⟩
    · exact h.future c (Nat.le_of_succ_le hc)
    · obtain rfl : w.spawned = c := Option.some.inj hc
      exact h.future w.spawned (le_refl _)

theorem spec_spawn (h : Good I maxReceive w) (hdetached : w.runner.Detached) :
    Spec spawn (fun _ w' => Fine I maxReceive w w') (fun _ w' => Lost I maxReceive w') w := by
  refine spec_perform fun x hx => ?_
  have hok : ∀ alive, (∀ a, (Host.exec .spawn { w with alive := alive }).1 = .ok a →
      Fine I maxReceive w (Host.exec .spawn { w with alive := alive }).2) ∧
      ∀ e, (Host.exec .spawn { w with alive := alive }).1 = .error e →
        Lost I maxReceive (Host.exec .spawn { w with alive := alive }).2 := by
    intro alive
    obtain ⟨hfine, b, hb⟩ := (h.alive alive).good.spawn
    refine ⟨fun _ _ => (h.alive alive).trans hfine, fun e he => ?_⟩
    have hcontra := hb.symm.trans he
    cases hcontra
  rcases hx with rfl | hx
  · exact hok w.alive
  · cases hx with
    | dies => exact hok _
    | spawn => exact ⟨nofun, fun _ _ => ⟨h, hdetached⟩⟩

theorem spec_connected (h : Good I maxReceive w) :
    Spec connected (fun b w' => Fine I maxReceive w w' ∧ w'.runner = w.runner ∧
      w'.stream = w.stream ∧ (b = false ↔ w.runner.Detached)) (fun _ _ => False) w := by
  refine spec_perform fun x hx => ?_
  obtain ⟨alive, rfl⟩ := outcome_dies hx nofun nofun nofun
  refine ⟨fun b hb => ⟨h.alive alive, rfl, rfl, ?_⟩, nofun⟩
  obtain rfl : (w.runner.channel.isSome && w.runner.process.isSome) = b := Except.ok.inj hb
  rcases h.owns with hdetached | ⟨c, hprocess, hchannel, -⟩
  · rw [hdetached.channel]
    exact iff_of_true rfl hdetached
  · rw [hprocess, hchannel]
    refine iff_of_false nofun fun hdetached => ?_
    rw [hdetached.channel] at hchannel
    cases hchannel

theorem spec_usable (h : Good I maxReceive w) :
    Spec usable (fun _ w' => Fine I maxReceive w w') (fun _ _ => False) w := by
  refine spec_perform fun x hx => ?_
  obtain ⟨alive, rfl⟩ := outcome_dies hx nofun nofun nofun
  exact ⟨fun _ _ => h.alive alive, nofun⟩

theorem spec_send (h : Good I maxReceive w) (frame : Bytes) :
    Spec (send frame) (fun _ w' => Fine I maxReceive w w')
      (fun e w' => Apart I maxReceive w' ∧ Host.isSocketError e) w := by
  refine spec_perform fun x hx => ?_
  rcases hx with rfl | hx
  · exact ⟨fun _ _ => ⟨h, rfl, rfl, .refl _ _⟩, nofun⟩
  · cases hx with
    | dies => exact ⟨fun _ _ => h.alive _, nofun⟩
    | send he => exact ⟨nofun, fun _ heq => ⟨⟨h.owns, h.future⟩, Except.error.inj heq ▸ he⟩⟩

theorem spec_generation (h : Good I maxReceive w) :
    Spec generation (fun _ w' => Fine I maxReceive w w') (fun _ _ => False) w := by
  refine spec_perform fun x hx => ?_
  obtain ⟨alive, rfl⟩ := outcome_dies hx nofun nofun nofun
  exact ⟨fun _ _ => h.alive alive, nofun⟩

theorem spec_setGeneration (h : Good I maxReceive w) (hopen : ¬w.runner.Detached) (g : Int) :
    Spec (setGeneration g) (fun _ w' => Fine I maxReceive w w') (fun _ _ => False) w := by
  refine spec_perform fun x hx => ?_
  obtain ⟨alive, rfl⟩ := outcome_dies hx nofun nofun nofun
  exact ⟨fun _ _ => ⟨⟨⟨Or.inr (h.owns.resolve_left hopen), h.future⟩, h.current⟩, rfl, rfl,
    .refl _ _⟩, nofun⟩

theorem spec_nextRequest (h : Good I maxReceive w) :
    Spec nextRequest (fun request w' => request = w.runner.requestId + 1 ∧ Good I maxReceive w' ∧
      w'.broken = w.broken ∧ w'.runner.requestId = request ∧ FramesRead maxReceive w w')
      (fun _ _ => False) w := by
  refine spec_perform fun x hx => ?_
  obtain ⟨alive, rfl⟩ := outcome_dies hx nofun nofun nofun
  refine ⟨fun request hr => ?_, nofun⟩
  obtain rfl : w.runner.requestId + 1 = request := Except.ok.inj hr
  exact ⟨rfl, ⟨⟨h.owns.imp (fun h => ⟨h.process, h.channel, h.generation⟩) id, h.future⟩,
    h.current⟩, rfl, rfl, .refl _ _⟩

theorem spec_abort (h : Apart I maxReceive w) :
    Spec abort (fun _ w' => Lost I maxReceive w') (fun _ _ => False) w := by
  refine wp_bind.mpr (spec_perform fun x hx => ?_)
  obtain ⟨alive, rfl⟩ := outcome_dies hx nofun nofun nofun
  have hlost : Lost I maxReceive (w.setRunner w.runner.detached) := h.lost
  refine ⟨fun process _ => ?_, nofun⟩
  cases process with
  | none => exact ⟨trivial, ⟨⟨⟨hlost.1.owns, hlost.1.future⟩, hlost.1.current⟩, hlost.2⟩⟩
  | some c =>
    refine spec_perform fun x hx => ?_
    obtain ⟨alive', rfl⟩ := outcome_dies hx nofun nofun nofun
    exact ⟨fun _ _ => ⟨⟨⟨hlost.1.owns, hlost.1.future⟩, hlost.1.current⟩, hlost.2⟩, nofun⟩

/-! ## Frames -/

/-- `_socket_recv_exact` reads the front of the stream, or part of it before it raises. -/
theorem spec_recvExact (h : Apart I maxReceive w) {c : Child} (hc : w.runner.channel = some c)
    (size : Nat) :
    Spec (recvExact size) (fun data w' => ∃ rest, w.stream c = data ++ rest ∧
        data.length = size ∧ w'.stream = Function.update w.stream c rest ∧
        w'.runner = w.runner ∧ w'.spawned = w.spawned ∧ w'.broken = w.broken)
      (fun e w' => Apart I maxReceive w' ∧ Host.isSocketError e) w := by
  have hlt := h.channel_lt hc
  have hfuture : ∀ rest d, w.spawned ≤ d → ∀ f,
      FrameOf maxReceive (Function.update w.stream c rest d) f → Shallow I f := by
    intro rest d hd f
    rw [Function.update_of_ne (Nat.ne_of_gt (hlt.trans_le hd))]
    exact h.future d hd f
  refine spec_perform fun x hx => ?_
  have hexec : ∀ alive, x = Host.recvExact { w with alive := alive } size →
      (∀ data : Bytes, x.1 = .ok data → ∃ rest, w.stream c = data ++ rest ∧
        data.length = size ∧ x.2.stream = Function.update w.stream c rest ∧
        x.2.runner = w.runner ∧ x.2.spawned = w.spawned ∧ x.2.broken = w.broken) ∧
      ∀ e, x.1 = .error e → Apart I maxReceive x.2 ∧ Host.isSocketError e := by
    rintro alive rfl
    simp only [Host.recvExact, hc]
    split_ifs with hsize
    · refine ⟨fun data hdata => ?_, nofun⟩
      obtain rfl : (w.stream c).take size = data := Except.ok.inj hdata
      refine ⟨(w.stream c).drop size, (List.take_append_drop _ _).symm, ?_, rfl, rfl, rfl, rfl⟩
      rw [List.length_take]
      exact min_eq_left hsize
    · refine ⟨nofun, fun e he => ⟨⟨h.owns, hfuture []⟩, ?_⟩⟩
      obtain rfl : closedError = e := Except.error.inj he
      exact Or.inr (Or.inl rfl)
  rcases hx with rfl | hx
  · exact hexec w.alive rfl
  · cases hx with
    | dies => exact hexec _ rfl
    | recv n he hd =>
      obtain rfl := Option.some.inj (hc.symm.trans hd)
      exact ⟨nofun, fun _ heq => ⟨⟨h.owns, hfuture _⟩, Except.error.inj heq ▸ he⟩⟩

/-- A length that was read is the length of the frame behind it. -/
theorem packLength_of_parse {encoded : Bytes} {size : Nat}
    (h : parseFrameLength encoded = .ok size) : packLength size = encoded := by
  unfold parseFrameLength at h
  split_ifs at h with hlen
  obtain rfl := Except.ok.inj h
  have hrev : encoded.reverse.length = 8 := by
    rw [List.length_reverse]
    exact not_not.mp hlen
  have hback := leBytes_leValue encoded.reverse
  rw [hrev] at hback
  rw [packLength, unpackLength, hback, List.reverse_reverse]

theorem parse_raises (encoded : Bytes) :
    RaisesOnly Host.isSocketError (parseFrameLength encoded) := by
  unfold parseFrameLength
  split_ifs
  · exact raisesOnly_error.mpr (Or.inr (Or.inr (Or.inr rfl)))
  · exact raisesOnly_ok

/-- A whole frame has been read from the connection. -/
theorem Good.read_frame (h : Good I maxReceive w) {c : Child} (hc : w.runner.channel = some c)
    {frame rest : Bytes} (hframed : w.stream c = framed frame ++ rest)
    (hsize : 2 ≤ frame.length ∧ (frame.length : Int) ≤ maxReceive) {w' : Host}
    (hstream : w'.stream = Function.update w.stream c rest) (hrunner : w'.runner = w.runner)
    (hspawned : w'.spawned = w.spawned) (hbroken : w'.broken = w.broken) :
    Fine I maxReceive w w' ∧ Shallow I frame ∧ LastRead maxReceive w w' frame := by
  have hlt := h.channel_lt hc
  have hrest : w'.stream c = rest := by
    rw [hstream, Function.update_self]
  have hframes : FramesRead maxReceive w w' := by
    intro d
    by_cases hd : d = c
    · subst hd
      refine ⟨[frame], List.forall_mem_singleton.mpr hsize, ?_⟩
      rw [hrest, hframed, List.flatMap_singleton]
    · refine ⟨[], List.forall_mem_nil _, ?_⟩
      rw [hstream, Function.update_of_ne hd]
      rfl
  refine ⟨⟨⟨⟨hrunner ▸ hspawned ▸ h.owns, fun d hd => ?_⟩, fun d hd f hf => ?_⟩, hbroken,
    by rw [hrunner], hframes⟩, ?_, c, hrunner ▸ hc, [], List.forall_mem_singleton.mpr hsize, ?_⟩
  · rw [hspawned] at hd
    rw [hstream, Function.update_of_ne (Nat.ne_of_gt (hlt.trans_le hd))]
    exact h.future d hd
  · obtain rfl : c = d := Option.some.inj ((hrunner ▸ hc).symm.trans hd)
    rw [hrest] at hf
    refine h.current c hc f ?_
    rw [hframed]
    exact .later hsize.1 hsize.2 hf
  · refine h.current c hc frame ?_
    rw [hframed]
    exact .first hsize.1 hsize.2
  · rw [hrest, hframed, List.nil_append, List.flatMap_singleton]

/-- `_socket_recv_frame` reads one frame. -/
theorem spec_socketRecvFrame (h : Good I maxReceive w) (hopen : ¬w.runner.Detached) :
    Spec (socketRecvFrame maxReceive)
      (fun frame w' => Fine I maxReceive w w' ∧ w'.runner = w.runner ∧ Shallow I frame ∧
        LastRead maxReceive w w' frame)
      (fun e w' => Apart I maxReceive w' ∧ Host.isSocketError e) w := by
  obtain ⟨c, hprocess, hc, hlt⟩ := h.owns.resolve_left hopen
  refine wp_bind.mpr (wp_mono (spec_recvExact h.toApart hc framePrefixBytes) ?_
    (fun _ _ _ h => h) fun _ h => h)
  rintro encoded w₁ - ⟨rest₁, hstream, -, hstream₁, hrunner₁, hspawned₁, hbroken₁⟩
  have hapart₁ : Apart I maxReceive w₁ := by
    refine ⟨hrunner₁ ▸ hspawned₁ ▸ h.owns, fun d hd => ?_⟩
    rw [hspawned₁] at hd
    rw [hstream₁, Function.update_of_ne (Nat.ne_of_gt (hlt.trans_le hd))]
    exact h.future d hd
  refine wp_bind.mpr (wp_liftM.mpr ⟨trivial, fun size hsize => ?_, fun e he =>
    ⟨hapart₁, parse_raises encoded e he⟩⟩)
  refine wp_bind.mpr (wp_liftM.mpr ⟨trivial, fun _ hbound => ?_, fun e he =>
    ⟨hapart₁, raisesOnly_raiseIf (Or.inr (Or.inr (Or.inr rfl))) e he⟩⟩)
  have hc₁ : w₁.runner.channel = some c := hrunner₁ ▸ hc
  refine wp_mono (spec_recvExact hapart₁ hc₁ size) ?_ (fun _ _ _ h => h) fun _ h => h
  rintro frame w₂ - ⟨rest₂, hstream', rfl, hstream₂, hrunner₂, hspawned₂, hbroken₂⟩
  rw [hstream₁, Function.update_self] at hstream'
  have hframed : w.stream c = framed frame ++ rest₂ := by
    rw [framed, packLength_of_parse hsize, List.append_assoc, ← hstream', hstream]
  have hsize' : 2 ≤ frame.length ∧ (frame.length : Int) ≤ maxReceive := by
    have := raiseIf_eq_ok.mp hbound
    omega
  have hrunner : w₂.runner = w.runner := hrunner₂.trans hrunner₁
  rw [hstream₁, Function.update_idem] at hstream₂
  obtain ⟨hfine, hshallow, hlast⟩ := h.read_frame hc hframed hsize' hstream₂ hrunner
    (hspawned₂.trans hspawned₁) (hbroken₂.trans hbroken₁)
  exact ⟨hfine, hrunner, hshallow, hlast⟩

/-- The handlers of a transport error give up the child. -/
theorem spec_transportFailed {α : Type} {Q : α → Host → Prop} (h : Apart I maxReceive w)
    {e : PyError} (he : Host.isSocketError e) (deadlineError : Bool) (closed : PyStr) :
    Spec (transportFailed deadlineError closed e : RunnerProg α) Q
      (fun _ w' => Lost I maxReceive w') w := by
  have habort : ∀ e' : PyError, Spec (abort >>= fun _ => (throw e' : RunnerProg α)) Q
      (fun _ w' => Lost I maxReceive w') w := by
    intro e'
    refine wp_bind.mpr (wp_mono (spec_abort h) (fun _ w' _ hlost => ?_) (fun _ _ _ h => h.elim)
      fun _ h => h)
    exact wp_throw.mpr ⟨trivial, hlost⟩
  unfold transportFailed
  by_cases htime : e.cls = .timeoutError
  · rw [if_pos htime]
    exact habort _
  · rw [if_neg htime, if_pos (he.resolve_left htime)]
    exact habort _

theorem spec_sendFrame (h : Good I maxReceive w) (frame : Bytes) (deadlineError : Bool) :
    Spec (sendFrame frame deadlineError) (fun _ w' => Fine I maxReceive w w')
      (fun _ w' => Lost I maxReceive w') w := by
  refine wp_bind.mpr (wp_mono (spec_usable h) ?_ (fun _ _ _ h => h.elim) fun _ h => h)
  rintro b w₁ - hfine
  cases b with
  | true =>
    refine wp_catch.mpr (wp_mono (spec_send hfine.good frame) (fun _ _ _ h => hfine.trans h) ?_
      fun _ h => h)
    rintro e w₂ - ⟨hapart, he⟩
    exact spec_transportFailed hapart he _ _
  | false =>
    refine wp_bind.mpr (wp_mono (spec_abort hfine.good.toApart) (fun _ _ _ hlost => ?_)
      (fun _ _ _ h => h.elim) fun _ h => h)
    exact wp_throw.mpr ⟨trivial, hlost⟩

/-- `_receive_frame` reads one frame, or gives up the child. -/
theorem spec_receiveFrame (h : Good I maxReceive w) (deadlineError : Bool) :
    Spec (receiveFrame maxReceive deadlineError)
      (fun frame w' => Fine I maxReceive w w' ∧ ¬w'.runner.Detached ∧ Shallow I frame ∧
        LastRead maxReceive w w' frame)
      (fun _ w' => Lost I maxReceive w') w := by
  refine wp_bind.mpr (wp_mono (spec_connected h) ?_ (fun _ _ _ h => h.elim) fun _ h => h)
  rintro b w₁ - ⟨hfine, hrunner, hstream, hdetached⟩
  cases b with
  | false => exact wp_throw.mpr ⟨trivial, hfine.good, hrunner ▸ hdetached.mp rfl⟩
  | true =>
    have hopen : ¬w₁.runner.Detached := fun h => nomatch hdetached.mpr (hrunner ▸ h)
    refine wp_catch.mpr (wp_mono (spec_socketRecvFrame hfine.good hopen) ?_ ?_ fun _ h => h)
    · rintro frame w₂ - ⟨hfine₂, hrunner₂, hshallow, c, hc, hread⟩
      exact ⟨hfine.trans hfine₂, hrunner₂ ▸ hopen, hshallow, c, hc, hstream ▸ hread⟩
    · rintro e w₂ - ⟨hapart, he⟩
      exact spec_transportFailed hapart he _ _

/-! ## Calls -/

/-- Decoding raises `IPCProtocolError` and changes nothing. -/
theorem spec_decode {α β : Type} {r : Except PyError α} (hr : RaisesOnly IsProtocolError r)
    {f : α → RunnerProg β} {Q : β → Host → Prop} {E : PyError → Host → Prop}
    (hraise : ∀ e, IsProtocolError e → E e w) (h : ∀ a, r = .ok a → Spec (f a) Q E w) :
    Spec (liftM r >>= f) Q E w :=
  wp_bind.mpr (wp_liftM.mpr ⟨trivial, h, fun e he => hraise e (hr e he)⟩)

/-- A handler of protocol errors gives up the child. -/
theorem spec_abort_throw {α : Type} (h : Apart I maxReceive w) (e : PyError) {Q : α → Host → Prop} :
    Spec (abort >>= fun _ => (throw e : RunnerProg α)) Q (fun _ w' => Lost I maxReceive w') w :=
  wp_bind.mpr (wp_mono (spec_abort h) (fun _ _ _ hlost => wp_throw.mpr ⟨trivial, hlost⟩)
    (fun _ _ _ h => h.elim) fun _ h => h)

theorem spec_readStart (h : Good I maxReceive w) {frame : Bytes} (hshallow : Shallow I frame) :
    Spec (readStart I frame) (fun _ w' => Fine I maxReceive w w')
      (fun e w' => IsProtocolError e ∧ Good I maxReceive w' ∨
        e.cls = .backendProcessError ∧ Lost I maxReceive w') w := by
  refine spec_decode (decodeFrame_raises (le_refl _) hshallow) (fun e he => Or.inl ⟨he, h⟩) ?_
  rintro ⟨header, payload⟩ -
  dsimp only
  split_ifs
  · refine spec_decode (decodeStartupError_raises hshallow) (fun e he => Or.inl ⟨he, h⟩) ?_
    rintro ⟨code, message⟩ -
    refine wp_bind.mpr (wp_mono (spec_abort h.toApart) (fun _ _ _ hlost => ?_)
      (fun _ _ _ h => h.elim) fun _ h => h)
    exact wp_throw.mpr ⟨trivial, Or.inr ⟨rfl, hlost⟩⟩
  · refine spec_decode (decodeReady_raises hshallow) (fun e he => Or.inl ⟨he, h⟩) ?_
    exact fun _ _ => wp_pure.mpr ⟨trivial, h, rfl, rfl, .refl _ _⟩

theorem spec_handshake (h : Good I maxReceive w) :
    Spec (handshake I maxReceive) (fun _ w' => Fine I maxReceive w w')
      (fun _ w' => Lost I maxReceive w') w := by
  refine wp_bind.mpr (wp_mono (spec_receiveFrame h false) ?_ (fun _ _ _ h => h) fun _ h => h)
  rintro frame w₁ - ⟨hfine, -, hshallow, -⟩
  refine wp_catch.mpr (wp_mono (spec_readStart hfine.good hshallow) (fun _ _ _ h => hfine.trans h)
    ?_ fun _ h => h)
  rintro e w₂ - (⟨he, hgood⟩ | ⟨he, hlost⟩)
  · have hvalue : isValueError e = true := by rw [isValueError, he]
    rw [if_pos hvalue]
    exact spec_abort_throw hgood.toApart _
  · have hvalue : ¬isValueError e = true := by
      rw [isValueError, he]
      exact Bool.false_ne_true
    rw [if_neg hvalue]
    exact wp_throw.mpr ⟨trivial, hlost⟩

theorem spec_start (h : Good I maxReceive w) :
    Spec (start I maxReceive) (fun _ w' => Fine I maxReceive w w')
      (fun _ w' => Lost I maxReceive w') w := by
  refine wp_bind.mpr (wp_mono (spec_startCheck h) ?_ (fun _ _ _ h => h.elim) fun _ h => h)
  rintro check w₁ - ⟨hfine, hdetached⟩
  cases check with
  | alive => exact wp_pure.mpr ⟨trivial, hfine⟩
  | stale process =>
    refine wp_bind.mpr (wp_mono (spec_reap hfine.good process) ?_ (fun _ _ _ h => h.elim)
      fun _ h => h)
    rintro _ w₂ - ⟨hfine₂, hrunner⟩
    refine wp_bind.mpr (wp_mono (spec_spawn hfine₂.good (hrunner ▸ hdetached _ rfl)) ?_
      (fun _ _ _ h => h) fun _ h => h)
    rintro started w₃ - hfine₃
    have hfine' := (hfine.trans hfine₂).trans hfine₃
    cases started with
    | true =>
      exact wp_mono (spec_handshake hfine'.good) (fun _ _ _ h => hfine'.trans h)
        (fun _ _ _ h => h) fun _ h => h
    | false => exact wp_pure.mpr ⟨trivial, hfine'⟩

/-- A well-formed answer to a load of this generation, which rejects it. -/
def RejectsLoad (I : Interpreter) (g : Int) (reply : Bytes) : Prop :=
  ∃ code message, decodeError I reply (py "load_error") false = .ok (g, code, message)

/-- A well-formed answer to this request, which reports an error. -/
def ReportsError (I : Interpreter) (request : Int) (reply : Bytes) : Prop :=
  ∃ code message, decodeError I reply (py "error") true = .ok (request, code, message)

theorem spec_readLoaded (h : Good I maxReceive w) (hopen : ¬w.runner.Detached) {reply : Bytes}
    (hshallow : Shallow I reply) (g : Int) :
    Spec (readLoaded I g reply) (fun _ w' => Fine I maxReceive w w')
      (fun e w' => IsProtocolError e ∧ Good I maxReceive w' ∨
        e.cls = .backendProcessError ∧ w' = w ∧ RejectsLoad I g reply) w := by
  refine spec_decode (decodeFrame_raises (le_refl _) hshallow) (fun e he => Or.inl ⟨he, h⟩) ?_
  rintro ⟨header, payload⟩ -
  dsimp only
  split_ifs
  · refine spec_decode (decodeGeneration_raises hshallow _) (fun e he => Or.inl ⟨he, h⟩) ?_
    intro loaded _
    refine spec_decode (raiseIf_raises _) (fun e he => Or.inl ⟨he, h⟩) fun _ _ => ?_
    exact wp_mono (spec_setGeneration h hopen loaded) (fun _ _ _ h => h) (fun _ _ _ h => h.elim)
      fun _ h => h
  · refine spec_decode (decodeError_raises hshallow _ _) (fun e he => Or.inl ⟨he, h⟩) ?_
    rintro ⟨loaded, code, message⟩ hdec
    refine spec_decode (raiseIf_raises _) (fun e he => Or.inl ⟨he, h⟩) fun _ hsame => ?_
    obtain rfl : loaded = g := not_not.mp (raiseIf_eq_ok.mp hsame)
    exact wp_throw.mpr ⟨trivial, Or.inr ⟨rfl, rfl, code, message, hdec⟩⟩
  · exact wp_throw.mpr ⟨trivial, Or.inl ⟨rfl, h⟩⟩

/-- How `load` may fail and keep the connection: nothing was sent, or the child rejected the
model. -/
inductive LoadRefused (I : Interpreter) (maxReceive : Int) (prepared : Prepared) (w w' : Host) :
    Prop
  | encode {e : PyError} : encodeLoadArtifact I prepared.artifact = .error e →
      Fine I maxReceive w w' → LoadRefused I maxReceive prepared w w'
  | rejected {reply : Bytes} : LastRead maxReceive w w' reply → RejectsLoad I prepared.generation reply →
      Fine I maxReceive w w' → LoadRefused I maxReceive prepared w w'

/-- What every operation does is known of a whole call. -/
theorem Spec.later {α : Type} {p : RunnerProg α} {Q : α → Host → Prop} {E : PyError → Host → Prop}
    (h : Spec p Q E w) :
    Spec p (fun a w' => Later w w' ∧ Q a w') (fun e w' => Later w w' ∧ E e w') w :=
  wp_tracks Later.refl (fun _ _ _ => Later.trans) Later.outcome h

theorem spec_sendModel (h : Good I maxReceive w) (g : Int) (frame : Bytes) :
    Spec (sendModel I maxReceive g frame) (fun _ w' => Fine I maxReceive w w')
      (fun _ w' => Lost I maxReceive w' ∨
        ∃ reply, LastRead maxReceive w w' reply ∧ RejectsLoad I g reply ∧ Fine I maxReceive w w') w := by
  refine wp_bind.mpr (wp_mono (spec_sendFrame h frame false) ?_ (fun _ _ _ h => Or.inl h)
    fun _ h => h)
  rintro _ w₁ - hfine₁
  refine wp_bind.mpr (wp_mono (spec_receiveFrame hfine₁.good false) ?_ (fun _ _ _ h => Or.inl h)
    fun _ h => h)
  rintro reply w₂ - ⟨hfine₂, hopen, hshallow, hread⟩
  have hfine := hfine₁.trans hfine₂
  refine wp_catch.mpr (wp_mono (spec_readLoaded hfine.good hopen hshallow g)
    (fun _ _ _ h => hfine.trans h) ?_ fun _ h => h)
  rintro e w₃ - (⟨he, hgood⟩ | ⟨he, rfl, hrejects⟩)
  · rw [if_pos (show e.cls = .ipcProtocolError from he)]
    exact wp_mono (spec_abort_throw hgood.toApart _) (fun _ _ _ h => h) (fun _ _ _ h => Or.inl h)
      fun _ h => h
  · have hne : ¬e.cls = .ipcProtocolError := by
      rw [he]
      nofun
    rw [if_neg hne]
    exact wp_throw.mpr ⟨trivial,
      Or.inr ⟨reply, hread.of_framesRead hfine₁.frames, hrejects, hfine⟩⟩

theorem spec_load (h : Good I maxReceive w) (prepared : Prepared) :
    Spec (load I maxReceive prepared) (fun _ w' => Fine I maxReceive w w')
      (fun _ w' => Lost I maxReceive w' ∨ LoadRefused I maxReceive prepared w w') w := by
  refine wp_bind.mpr (wp_mono (spec_start h) ?_ (fun _ _ _ h => Or.inl h) fun _ h => h)
  rintro _ w₁ - hfine₁
  refine wp_bind.mpr (wp_mono (spec_generation hfine₁.good) ?_ (fun _ _ _ h => h.elim)
    fun _ h => h)
  rintro loaded w₂ - hfine₂
  have hfine := hfine₁.trans hfine₂
  split_ifs
  · exact wp_pure.mpr ⟨trivial, hfine⟩
  · cases hencode : encodeLoadArtifact I prepared.artifact with
    | error e => exact wp_throw.mpr ⟨trivial, Or.inr (.encode hencode hfine)⟩
    | ok frame =>
      refine wp_mono (spec_sendModel hfine.good prepared.generation frame)
        (fun _ _ _ h => hfine.trans h) ?_ fun _ h => h
      rintro e w₃ - (hlost | ⟨reply, hread, hrejects, hfine₃⟩)
      · exact Or.inl hlost
      · exact Or.inr (.rejected (hread.of_framesRead hfine.frames) hrejects (hfine.trans hfine₃))

theorem spec_readResult {reply : Bytes} (hshallow : Shallow I reply) (request : Int) (batch : Nat)
    (limits : OutputLimits) :
    Spec (readResult I request batch limits reply)
      (fun array w' => w' = w ∧ decodeResult I reply request batch limits.maxOutputClasses
        limits.maxOutputValues = .ok array)
      (fun e w' => w' = w ∧ (IsProtocolError e ∨
        e.cls ≠ .ipcProtocolError ∧ ReportsError I request reply)) w := by
  have hpos := limits.values_pos
  refine spec_decode (decodeFrame_raises (by omega) hshallow) (fun e he => ⟨rfl, Or.inl he⟩) ?_
  rintro ⟨header, payload⟩ -
  dsimp only
  split_ifs
  · exact wp_liftM.mpr ⟨trivial, fun array harray => ⟨rfl, harray⟩, fun e he =>
      ⟨rfl, Or.inl (decodeResult_raises hshallow hpos.le e he)⟩⟩
  · refine spec_decode (decodeError_raises hshallow _ _) (fun e he => ⟨rfl, Or.inl he⟩) ?_
    rintro ⟨id, code, message⟩ hdec
    refine spec_decode (raiseIf_raises _) (fun e he => ⟨rfl, Or.inl he⟩) fun _ hsame => ?_
    obtain rfl : id = request := not_not.mp (raiseIf_eq_ok.mp hsame)
    refine wp_throw.mpr ⟨trivial, rfl, Or.inr ⟨?_, code, message, hdec⟩⟩
    split_ifs <;> (intro hcls; cases hcls)
  · exact wp_throw.mpr ⟨trivial, rfl, Or.inl rfl⟩

/-- A request has been numbered, and nothing has failed since `w`. -/
structure Numbered (I : Interpreter) (maxReceive : Int) (w w' : Host) : Prop where
  good : Good I maxReceive w'
  broken : w'.broken = w.broken
  requestId : w'.runner.requestId = w.runner.requestId + 1

theorem Numbered.fine {w₁ w' : Host} (h : Numbered I maxReceive w w₁)
    (h' : Fine I maxReceive w₁ w') : Numbered I maxReceive w w' :=
  ⟨h'.good, h'.broken.trans h.broken, h'.requestId.trans h.requestId⟩

/-- How `execute` may fail behind `load` and keep the connection: nothing was sent, or the
child reported an error. -/
inductive RequestRefused (I : Interpreter) (maxReceive : Int) (prepared : Prepared) (w w' : Host) :
    Prop
  | encode {e : PyError} :
      encodePredict I ⟨w.runner.requestId + 1, prepared.generation, prepared.inputs⟩ = .error e →
      Numbered I maxReceive w w' → RequestRefused I maxReceive prepared w w'
  | reported {reply : Bytes} : LastRead maxReceive w w' reply →
      ReportsError I (w.runner.requestId + 1) reply →
      Numbered I maxReceive w w' → RequestRefused I maxReceive prepared w w'

theorem spec_sendInputs (h : Good I maxReceive w) (request : Int) (batch : Nat)
    (limits : OutputLimits) (frame : Bytes) :
    Spec (sendInputs I maxReceive request batch limits frame)
      (fun array w' => Fine I maxReceive w w' ∧ ∃ reply, LastRead maxReceive w w' reply ∧
        decodeResult I reply request batch limits.maxOutputClasses limits.maxOutputValues =
          .ok array)
      (fun _ w' => Lost I maxReceive w' ∨
        ∃ reply, LastRead maxReceive w w' reply ∧ ReportsError I request reply ∧ Fine I maxReceive w w') w := by
  refine wp_bind.mpr (wp_mono (spec_sendFrame h frame true) ?_ (fun _ _ _ h => Or.inl h)
    fun _ h => h)
  rintro _ w₁ - hfine₁
  refine wp_bind.mpr (wp_mono (spec_receiveFrame hfine₁.good true) ?_ (fun _ _ _ h => Or.inl h)
    fun _ h => h)
  rintro reply w₂ - ⟨hfine₂, -, hshallow, hread⟩
  have hfine := hfine₁.trans hfine₂
  refine wp_catch.mpr (wp_mono (spec_readResult hshallow request batch limits) ?_ ?_ fun _ h => h)
  · rintro array w₃ - ⟨rfl, hdec⟩
    exact ⟨hfine, reply, hread.of_framesRead hfine₁.frames, hdec⟩
  · rintro e w₃ - ⟨rfl, he | ⟨he, hreports⟩⟩
    · rw [if_pos (show e.cls = .ipcProtocolError from he)]
      exact wp_mono (spec_abort_throw hfine.good.toApart _) (fun _ _ _ h => h)
        (fun _ _ _ h => Or.inl h) fun _ h => h
    · rw [if_neg he]
      exact wp_throw.mpr ⟨trivial,
        Or.inr ⟨reply, hread.of_framesRead hfine₁.frames, hreports, hfine⟩⟩

theorem spec_execute (h : Good I maxReceive w) (prepared : Prepared) (limits : OutputLimits) :
    Spec (execute I maxReceive prepared limits)
      (fun array w' => Numbered I maxReceive w w' ∧ ∃ reply, LastRead maxReceive w w' reply ∧
        decodeResult I reply (w.runner.requestId + 1) prepared.batch limits.maxOutputClasses
          limits.maxOutputValues = .ok array)
      (fun _ w' => Lost I maxReceive w' ∨ LoadRefused I maxReceive prepared w w' ∨
        RequestRefused I maxReceive prepared w w') w := by
  refine wp_bind.mpr (wp_mono (spec_load h prepared) ?_
    (fun _ _ _ h => h.imp_right Or.inl) fun _ h => h)
  rintro _ w₁ - hfine₁
  refine wp_bind.mpr (wp_mono (spec_nextRequest hfine₁.good) ?_ (fun _ _ _ h => h.elim)
    fun _ h => h)
  rintro request w₂ - ⟨hrequest, hgood₂, hbroken₂, hid₂, hframes₂⟩
  rw [hfine₁.requestId] at hrequest
  have hframes := hfine₁.frames.trans hframes₂
  have hnumbered : Numbered I maxReceive w w₂ :=
    ⟨hgood₂, hbroken₂.trans hfine₁.broken, hid₂.trans hrequest⟩
  cases hencode : encodePredict I ⟨request, prepared.generation, prepared.inputs⟩ with
  | error e =>
    exact wp_throw.mpr ⟨trivial, Or.inr (Or.inr (.encode (hrequest ▸ hencode) hnumbered))⟩
  | ok frame =>
    refine wp_mono (spec_sendInputs hgood₂ request prepared.batch limits frame) ?_ ?_ fun _ h => h
    · rintro array w₃ - ⟨hfine₃, reply, hread, hdec⟩
      exact ⟨hnumbered.fine hfine₃, reply, hread.of_framesRead hframes, hrequest ▸ hdec⟩
    · rintro e w₃ - (hlost | ⟨reply, hread, hreports, hfine₃⟩)
      · exact Or.inl hlost
      · exact Or.inr (Or.inr (.reported (hread.of_framesRead hframes) (hrequest ▸ hreports)
          (hnumbered.fine hfine₃)))

/-! ## Sequences of calls -/

inductive Call where
  | start
  | load (prepared : Prepared)
  | execute (prepared : Prepared) (limits : OutputLimits)

def Call.prog (I : Interpreter) (maxReceive : Int) : Call → RunnerProg (Option (NdArray UInt32))
  | .start => do
    ProcessRunner.start I maxReceive
    return none
  | .load prepared => do
    ProcessRunner.load I maxReceive prepared
    return none
  | .execute prepared limits => do
    let array ← ProcessRunner.execute I maxReceive prepared limits
    return some array

/-- A call, with the states before and after it. -/
structure Done where
  call : Call
  before : Host
  result : Except PyError (Option (NdArray UInt32))
  after : Host

/-- Calls made one after the other. -/
inductive Calls (I : Interpreter) (maxReceive : Int) : Host → List Done → Host → Prop
  | nil (w : Host) : Calls I maxReceive w [] w
  | cons {d : Done} {ds : List Done} {w : Host} :
      Host.sem.Finishes (d.call.prog I maxReceive) d.before d.result d.after →
      Calls I maxReceive d.after ds w → Calls I maxReceive d.before (d :: ds) w

namespace Done

/-- The id the call has given to its request. -/
def request (d : Done) : Option Int :=
  if d.after.runner.requestId = d.before.runner.requestId then none
  else some d.after.runner.requestId

/-- The call failed, but neither by a time-out nor by the transport nor by a frame that was
not whole, not expected or not for this call: nothing was sent, or the last frame is a
well-formed answer to this call that reports the failure. -/
def Orderly (I : Interpreter) (maxReceive : Int) (d : Done) : Prop :=
  match d.call with
  | .start => False
  | .load prepared => LoadRefused I maxReceive prepared d.before d.after
  | .execute prepared _ => LoadRefused I maxReceive prepared d.before d.after ∨
      RequestRefused I maxReceive prepared d.before d.after

/-- What a call returns came in a result frame for its own request, and a call that fails
out of order leaves nothing behind. -/
structure Correlated (I : Interpreter) (maxReceive : Int) (d : Done) : Prop where
  carried : ∀ prepared limits array, d.call = .execute prepared limits →
    d.result = .ok (some array) → ∃ id reply, d.request = some id ∧
      LastRead maxReceive d.before d.after reply ∧
      ResultFrame I reply id prepared.batch limits.maxOutputClasses limits.maxOutputValues array
  dropped : ∀ e, d.result = .error e → d.after.runner.Detached ∨ d.Orderly I maxReceive

end Done

/-- The outcomes of one call. -/
theorem spec_call (h : Good I maxReceive w) (call : Call) :
    Spec (call.prog I maxReceive)
      (fun r w' => Good I maxReceive w' ∧ ∀ prepared limits array,
        call = .execute prepared limits → r = some array → Numbered I maxReceive w w' ∧
          ∃ reply, LastRead maxReceive w w' reply ∧ decodeResult I reply (w.runner.requestId + 1)
            prepared.batch limits.maxOutputClasses limits.maxOutputValues = .ok array)
      (fun e w' => Good I maxReceive w' ∧ (w'.runner.Detached ∨
        Done.Orderly I maxReceive ⟨call, w, .error e, w'⟩)) w := by
  cases call with
  | start =>
    refine wp_bind.mpr (wp_mono (spec_start h) (fun _ w' _ hfine => ?_)
      (fun _ _ _ hlost => ⟨hlost.1, Or.inl hlost.2⟩) fun _ h => h)
    exact wp_pure.mpr ⟨trivial, hfine.good, fun _ _ _ hcall => nomatch hcall⟩
  | load prepared =>
    refine wp_bind.mpr (wp_mono (spec_load h prepared) (fun _ w' _ hfine => ?_) ?_ fun _ h => h)
    · exact wp_pure.mpr ⟨trivial, hfine.good, fun _ _ _ hcall => nomatch hcall⟩
    · rintro e w' - (hlost | hrefused)
      · exact ⟨hlost.1, Or.inl hlost.2⟩
      · refine ⟨?_, Or.inr hrefused⟩
        cases hrefused with
        | encode _ hfine => exact hfine.good
        | rejected _ _ hfine => exact hfine.good
  | execute prepared limits =>
    refine wp_bind.mpr (wp_mono (spec_execute h prepared limits) ?_ ?_ fun _ h => h)
    · rintro array w' - ⟨hnumbered, hreply⟩
      refine wp_pure.mpr ⟨trivial, hnumbered.good, ?_⟩
      rintro _ _ _ hcall harray
      cases hcall
      cases harray
      exact ⟨hnumbered, hreply⟩
    · rintro e w' - (hlost | hload | hrequest)
      · exact ⟨hlost.1, Or.inl hlost.2⟩
      · refine ⟨?_, Or.inr (Or.inl hload)⟩
        cases hload with
        | encode _ hfine => exact hfine.good
        | rejected _ _ hfine => exact hfine.good
      · refine ⟨?_, Or.inr (Or.inr hrequest)⟩
        cases hrequest with
        | encode _ hnumbered => exact hnumbered.good
        | reported _ _ hnumbered => exact hnumbered.good

theorem Done.request_of_numbered {d : Done} (h : Numbered I maxReceive d.before d.after) :
    d.request = some (d.before.runner.requestId + 1) := by
  have hne : ¬d.after.runner.requestId = d.before.runner.requestId := by
    rw [h.requestId]
    omega
  rw [Done.request, if_neg hne, h.requestId]

/-- A call is correlated, and leaves the runner ready for the next one. -/
theorem call_correlated {d : Done} (h : Good I maxReceive d.before)
    (hrun : Host.sem.Finishes (d.call.prog I maxReceive) d.before d.result d.after) :
    d.Correlated I maxReceive ∧ Good I maxReceive d.after := by
  obtain ⟨call, before, result, after⟩ := d
  cases result with
  | ok r =>
    obtain ⟨hgood, hreply⟩ := wp_returns (spec_call h call) hrun
    refine ⟨⟨fun prepared limits array hcall hresult => ?_, nofun⟩, hgood⟩
    obtain ⟨hnumbered, reply, hread, hdec⟩ :=
      hreply prepared limits array hcall (Except.ok.inj hresult)
    exact ⟨_, reply, Done.request_of_numbered hnumbered, hread, decodeResult_frame hdec⟩
  | error e =>
    obtain ⟨hgood, hfailed⟩ := wp_raises (spec_call h call) hrun
    refine ⟨⟨nofun, fun e' he' => ?_⟩, hgood⟩
    obtain rfl := Except.error.inj he'
    exact hfailed

/-- What every operation does is known of a run. -/
theorem Later.finishes {α : Type} {p : RunnerProg α} {w w' : Host} {r : Except PyError α}
    (h : Host.sem.Finishes p w r w') : Later w w' := by
  cases r with
  | ok a => exact (wp_returns (Spec.later (wp_mono (wp_trivial p w) (fun _ _ _ h => h)
      (fun _ _ _ h => h) fun _ h => h)) h).1
  | error e => exact (wp_raises (Spec.later (wp_mono (wp_trivial p w) (fun _ _ _ h => h)
      (fun _ _ _ h => h) fun _ h => h)) h).1

theorem Calls.later {w w' : Host} {ds : List Done} (h : Calls I maxReceive w ds w') :
    Later w w' := by
  induction h with
  | nil => exact Later.refl _
  | cons hrun _ ih => exact (Later.finishes hrun).trans ih

theorem Calls.split {w w' : Host} {before after : List Done} {d : Done}
    (h : Calls I maxReceive w (before ++ d :: after) w') :
    Calls I maxReceive d.after after w' := by
  induction before generalizing w with
  | nil =>
    cases h with
    | cons _ hrest => exact hrest
  | cons d' before ih =>
    cases h with
    | cons _ hrest => exact ih hrest

/-- Every id is greater than those before it. -/
theorem Calls.requests {w w' : Host} {ds : List Done} (h : Calls I maxReceive w ds w') :
    (∀ id ∈ ds.filterMap Done.request, w.runner.requestId < id) ∧
      (ds.filterMap Done.request).Pairwise (· < ·) := by
  induction h with
  | nil => exact ⟨List.forall_mem_nil _, .nil⟩
  | @cons d ds _ hrun _ ih =>
    have hle := (Later.finishes hrun).requestId
    obtain ⟨habove, hpairwise⟩ := ih
    have habove' : ∀ id ∈ ds.filterMap Done.request, d.before.runner.requestId < id :=
      fun id hid => hle.trans_lt (habove id hid)
    rw [List.filterMap_cons]
    unfold Done.request at habove habove' hpairwise ⊢
    split_ifs with hsame
    · exact ⟨habove', hpairwise⟩
    · refine ⟨List.forall_mem_cons.mpr ⟨by omega, habove'⟩, List.pairwise_cons.mpr ⟨habove, hpairwise⟩⟩

/-- A runner answers each request with its own reply or not at all, whatever its children
send, as long as no header of theirs is nested too deeply for `json.loads`. -/
theorem reply_correlation {w w' : Host} {ds : List Done} (hnew : w.runner = .new)
    (hshallow : ∀ c f, FrameOf maxReceive (w.stream c) f → Shallow I f)
    (h : Calls I maxReceive w ds w') :
    (∀ d ∈ ds, d.Correlated I maxReceive) ∧ (ds.filterMap Done.request).Pairwise (· < ·) ∧
      ∀ before d after, ds = before ++ d :: after → d.after.runner.Detached →
        ∀ c < d.after.spawned, w'.stream c = d.after.stream c := by
  have hgood : Good I maxReceive w := by
    have hdetached : w.runner.Detached := by
      rw [hnew]
      exact ⟨rfl, rfl, rfl⟩
    exact ⟨⟨Or.inl hdetached, fun c _ => hshallow c⟩, fun c _ => hshallow c⟩
  refine ⟨?_, h.requests.2, ?_⟩
  · clear hnew hshallow
    induction h with
    | nil => exact List.forall_mem_nil _
    | cons hrun _ ih =>
      obtain ⟨hcorrelated, hgood'⟩ := call_correlated hgood hrun
      exact List.forall_mem_cons.mpr ⟨hcorrelated, ih hgood'⟩
  · rintro before d after rfl hdetached c hc
    refine (h.split.later.closed c hc ?_).2
    rw [hdetached.channel]
    nofun

/-! ## Samples -/

/-- A host whose children send these bytes. -/
def hostOf (stream : Child → Bytes) : Host := ⟨.new, [], 0, stream, 0⟩

/-- The run of one call in which nothing fails by itself. -/
def Done.of (I : Interpreter) (maxReceive : Int) (call : Call) (w : Host) : Done :=
  ⟨call, w, (Host.sem.run (call.prog I maxReceive) w).1,
    (Host.sem.run (call.prog I maxReceive) w).2⟩

theorem calls_of (I : Interpreter) (maxReceive : Int) (call : Call) (w : Host) :
    Calls I maxReceive w [Done.of I maxReceive call w] (Done.of I maxReceive call w).after :=
  let d := Done.of I maxReceive call w
  show Calls I maxReceive d.before [d] d.after from
    .cons (Host.sem.run_finishes _ w) (.nil _)

/-- A header that `decode_frame` has read was not nested too deeply. -/
theorem shallow_of_decodeFrame {frame payload : Bytes} {header : List (PyStr × Json)}
    {maxPayloadBytes : Int} (h : decodeFrame I frame maxPayloadBytes = .ok (header, payload)) :
    Shallow I frame := by
  obtain ⟨-, line, hframe, hbreak, -, hle, hdec, -⟩ := decodeFrame_eq_ok.mp h
  intro n s hn hs e he
  rw [terminator_eq_some.mpr ⟨line, payload, hframe, hbreak, hle, rfl⟩] at hn
  obtain rfl := Option.some.inj hn
  rw [hframe, List.take_left] at hs
  obtain ⟨hascii, hloads⟩ := decodeHeader_eq_ok.mp hdec
  rw [(asciiDecode_eq_ok.mp hs).2, hloads] at he
  cases he

theorem packLength_injective {m n : Nat} (hm : (m : Int) ≤ maxUint) (hn : (n : Int) ≤ maxUint)
    (h : packLength m = packLength n) : m = n := by
  have hparse := parseFrameLength_packLength hm
  rw [h, parseFrameLength_packLength hn] at hparse
  exact (Except.ok.inj hparse).symm

/-- The frames of a stream that starts with a frame. -/
theorem FrameOf.of_framed (hmax : maxReceive ≤ maxUint) {frame rest frame' : Bytes}
    (hlen : (frame.length : Int) ≤ maxReceive) (h : FrameOf maxReceive (framed frame ++ rest) frame') :
    frame' = frame ∨ FrameOf maxReceive rest frame' := by
  have hsplit : ∀ {f r : Bytes}, (f.length : Int) ≤ maxReceive →
      framed f ++ r = framed frame ++ rest → f = frame ∧ r = rest := by
    intro f r hf heq
    rw [framed, framed, List.append_assoc, List.append_assoc] at heq
    obtain ⟨hlength, hbody⟩ := List.append_inj heq
      ((length_packLength _).trans (length_packLength _).symm)
    exact List.append_inj hbody (packLength_injective (hf.trans hmax) (hlen.trans hmax) hlength)
  generalize hstream : framed frame ++ rest = stream at h
  cases h with
  | first _ hf => exact Or.inl (hsplit hf hstream.symm).1
  | later _ hf hrest => exact Or.inr ((hsplit hf hstream.symm).2 ▸ hrest)

theorem not_frameOf_nil {frame : Bytes} : ¬FrameOf maxReceive [] frame := by
  intro h
  generalize hstream : ([] : Bytes) = stream at h
  have hne : ∀ f r : Bytes, framed f ++ r ≠ [] := by
    intro f r hnil
    have hlen := congrArg List.length hnil
    rw [framed, List.length_append, List.length_append, length_packLength] at hlen
    simp [framePrefixBytes] at hlen
  cases h with
  | first => exact hne _ _ hstream.symm
  | later => exact hne _ _ hstream.symm

/-- The bytes of a text. -/
def textBytes (s : PyStr) : Bytes := s.map fun c => byte c.val

def readyFrame : Bytes :=
  textBytes (py "\x7b\"magic\":\"EDGEAI-IPC\"," ++ py "\"op\":\"ready\"," ++
    py "\"payload_bytes\":0,\"pid\":7,\"v\":1\x7d\n")

def loadedFrame : Bytes :=
  textBytes (py "\x7b\"generation\":1," ++ py "\"magic\":\"EDGEAI-IPC\"," ++
    py "\"op\":\"loaded\",\"payload_bytes\":0," ++ py "\"v\":1\x7d\n")

/-- One logit, `1.0`, for request 1. -/
def resultFrame : Bytes :=
  textBytes (py "\x7b\"cols\":1," ++ py "\"magic\":\"EDGEAI-IPC\"," ++
    py "\"op\":\"result\",\"payload_bytes\":4," ++ py "\"request_id\":1,\"rows\":1," ++
    py "\"v\":1\x7d\n") ++ [0, 0, 0x80, 0x3F]

def answeringHost : Host :=
  hostOf fun _ => framed readyFrame ++ (framed loadedFrame ++ (framed resultFrame ++ []))

def samplePrepared : Prepared :=
  ⟨⟨1, [1], py "linear", py "numpy-v1", 1024⟩, ⟨[1, 1], [0], rfl⟩⟩

def sampleExecute : Done :=
  .of Sample.interpreter 5000 (.execute samplePrepared ⟨8, 8, by decide⟩) answeringHost

theorem shallow_answering (c : Child) (f : Bytes)
    (h : FrameOf 5000 (answeringHost.stream c) f) : Shallow Sample.interpreter f := by
  have hdecode : ∀ frame : Bytes, (decodeFrame Sample.interpreter frame 4).isOk = true →
      Shallow Sample.interpreter frame := by
    intro frame hok
    obtain ⟨⟨header, payload⟩, hdec⟩ := exists_ok hok
    exact shallow_of_decodeFrame hdec
  rcases h.of_framed (by decide) (by decide) with rfl | h
  · exact hdecode _ (by decide +kernel)
  · rcases h.of_framed (by decide) (by decide) with rfl | h
    · exact hdecode _ (by decide +kernel)
    · rcases h.of_framed (by decide) (by decide) with rfl | h
      · exact hdecode _ (by decide +kernel)
      · exact absurd h not_frameOf_nil

theorem reply_correlation_sample : sampleExecute.result.isOk = true ∧
    (∀ d ∈ [sampleExecute], d.Correlated Sample.interpreter 5000) ∧
    ([sampleExecute].filterMap Done.request).Pairwise (· < ·) ∧
    ∀ before d after, [sampleExecute] = before ++ d :: after → d.after.runner.Detached →
      ∀ c < d.after.spawned, sampleExecute.after.stream c = d.after.stream c :=
  ⟨by decide +kernel, reply_correlation rfl shallow_answering
    (calls_of Sample.interpreter 5000 _ answeringHost)⟩

/-- 901 brackets, where the interpreter has room for 900. -/
def nestedFrame : Bytes := List.replicate 901 0x5B ++ [0x0A]

def nestedHost : Host := hostOf fun _ => framed nestedFrame

def nestedStart : Done := .of Sample.interpreter 5000 .start nestedHost

/-- `start` fails by an ill-formed frame and keeps the child and its connection. -/
theorem nested_header_keeps_connection :
    nestedHost.runner = .new ∧ Calls Sample.interpreter 5000 nestedHost [nestedStart] nestedStart.after ∧
      nestedStart.after.runner.process = some 0 ∧ nestedStart.after.runner.channel = some 0 ∧
      ¬nestedStart.Correlated Sample.interpreter 5000 := by
  have hfailed : nestedStart.result.isOk = false := by decide +kernel
  have hchannel : nestedStart.after.runner.channel = some 0 := by decide +kernel
  refine ⟨rfl, calls_of Sample.interpreter 5000 .start nestedHost, by decide +kernel, hchannel, ?_⟩
  intro hcorrelated
  cases hresult : nestedStart.result with
  | ok r =>
    rw [hresult] at hfailed
    cases hfailed
  | error e =>
    rcases hcorrelated.dropped e hresult with hdetached | horderly
    · rw [hdetached.channel] at hchannel
      cases hchannel
    · exact horderly

end ProcessRunner
end Runtime
end EdgeFort
