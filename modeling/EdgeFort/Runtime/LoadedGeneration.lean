/-
The generation a runner believes to be loaded, and the model its child holds.

Between calls nothing is on its way.  A call sends one frame and reads one reply, so what the
child holds afterwards is known from the reply, and where no reply came the child is given up.
-/
import EdgeFort.Ipc.Rounds
import EdgeFort.Runtime.Supervised

namespace EdgeFort
namespace Runtime
namespace ProcessRunner
namespace Supervised

open Effect Ipc

variable {ρ : Type} {I : Interpreter} {B : Backend ρ} {limits : WorkerLimits}
  {models : LoadArtifact → Prop} {w w' w'' : Supervised ρ} {c : Child}

/-! ## States between calls -/

/-- The runtime was built from a model of this generation. -/
def BuiltFrom (B : Backend ρ) (models : LoadArtifact → Prop) (g : Int) (runtime : ρ) : Prop :=
  ∃ m, models m ∧ m.generation = g ∧
    B.loadRuntime m.modelBytes m.modelKind m.runtimeAbi m.maxUncompressed = .ok runtime

/-- What a worker takes for a generation's runtime is one. -/
def Sound (B : Backend ρ) (models : LoadArtifact → Prop) (s : WorkerState ρ) : Prop :=
  ∀ runtime g, s = ⟨some runtime, some g⟩ → BuiltFrom B models g runtime

/-- A child that has not been sent anything, and its handshake. -/
structure Fresh (w : Supervised ρ) (c : Child) : Prop where
  inbox : w.inbox c = []
  state : w.state c = ⟨none, none⟩
  stream : w.host.stream c = [] ∨
    ∃ frame, w.host.stream c = framed frame ∧ (frame.length : Int) ≤ maxUint

/-- The runner has a child and its connection, or neither, and children to come are fresh. -/
structure Wired (w : Supervised ρ) : Prop where
  owns : w.host.runner.Detached ∨ ∃ c, w.host.runner.process = some c ∧
    w.host.runner.channel = some c ∧ c < w.host.spawned
  future : ∀ c, w.host.spawned ≤ c → w.Fresh c

/-- A state between calls. -/
structure Calm (B : Backend ρ) (models : LoadArtifact → Prop) (w : Supervised ρ) : Prop
    extends Wired w where
  quiet : ∀ c, w.host.runner.channel = some c → w.inbox c = [] ∧ w.host.stream c = []
  sound : ∀ c, w.host.runner.channel = some c → Sound B models (w.state c)

/-- The child holds a runtime for the generation the runner believes to be loaded. -/
def Agrees (w : Supervised ρ) : Prop :=
  ∀ g c, w.host.runner.generation = some g → w.host.runner.channel = some c →
    ∃ runtime, w.state c = ⟨some runtime, some g⟩

theorem agrees_of_none (h : w.host.runner.generation = none) : w.Agrees := by
  intro g c hg
  rw [h] at hg
  cases hg

/-- The runner has given up its child. -/
def Lost (B : Backend ρ) (models : LoadArtifact → Prop) (w : Supervised ρ) : Prop :=
  Calm B models w ∧ w.host.runner.Detached

/-- No generation is believed to be loaded. -/
def Blank (B : Backend ρ) (models : LoadArtifact → Prop) (w : Supervised ρ) : Prop :=
  Calm B models w ∧ w.host.runner.generation = none

theorem Lost.blank (h : Lost B models w) : Blank B models w := ⟨h.1, h.2.generation⟩

/-- The runner and its child are as they were. -/
structure Kept (B : Backend ρ) (models : LoadArtifact → Prop) (w w' : Supervised ρ) : Prop where
  calm : Calm B models w'
  runner : w'.host.runner = w.host.runner
  state : ∀ c, w.host.runner.channel = some c → w'.state c = w.state c

theorem Kept.trans (h : Kept B models w w') (h' : Kept B models w' w'') : Kept B models w w'' where
  calm := h'.calm
  runner := h'.runner.trans h.runner
  state c hc := (h'.state c (h.runner ▸ hc)).trans (h.state c hc)

theorem Kept.agrees (h : Kept B models w w') (hw : w.Agrees) : w'.Agrees := by
  intro g c hg hc
  rw [h.runner] at hg hc
  rw [h.state c hc]
  exact hw g c hg hc

/-! ## What children do meanwhile -/

theorem Undisturbed.fresh (h : Undisturbed w w') (hc : w.Fresh c) : w'.Fresh c := by
  obtain ⟨hinbox, hstate, hstream⟩ := h.quiet c hc.inbox
  exact ⟨hinbox, hstate.trans hc.state, hstream ▸ hc.stream⟩

theorem Undisturbed.wired (h : Undisturbed w w') (hw : w.Wired) : w'.Wired :=
  ⟨h.runner ▸ h.spawned ▸ hw.owns, fun c hc => h.fresh (hw.future c (h.spawned ▸ hc))⟩

theorem Undisturbed.kept (h : Undisturbed w w') (hw : Calm B models w) : Kept B models w w' := by
  refine ⟨⟨h.wired hw.toWired, fun c hc => ?_, fun c hc => ?_⟩, h.runner, fun c hc => ?_⟩
  · rw [h.runner] at hc
    obtain ⟨hinbox, hstream⟩ := hw.quiet c hc
    obtain ⟨hinbox', -, hstream'⟩ := h.quiet c hinbox
    exact ⟨hinbox', hstream'.trans hstream⟩
  · rw [h.runner] at hc
    rw [(h.quiet c (hw.quiet c hc).1).2.1]
    exact hw.sound c hc
  · exact (h.quiet c (hw.quiet c hc).1).2.1

theorem Wired.lost (h : w.Wired) : Lost B models (w.setHost (w.host.setRunner w.host.runner.detached)) :=
  ⟨⟨⟨Or.inl (Fields.detached_detached _), fun c hc => ⟨(h.future c hc).inbox,
    (h.future c hc).state, (h.future c hc).stream⟩⟩, nofun, nofun⟩, Fields.detached_detached _⟩

/-! ## Operations -/

/-- Every run of `p` from `w` ends in `Q` or raises in `E`. -/
abbrev Spec (I : Interpreter) (B : Backend ρ) (limits : WorkerLimits) {α : Type} (p : RunnerProg α)
    (Q : α → Supervised ρ → Prop) (E : PyError → Supervised ρ → Prop) (w : Supervised ρ) : Prop :=
  wp (sem I B limits) p Q E (fun _ => True) w

theorem spec_perform {o : Op} {Q : Res o → Supervised ρ → Prop} {E : PyError → Supervised ρ → Prop}
    (h : ∀ x, (sem I B limits).Outcome o w x →
      (∀ a, x.1 = .ok a → Q a x.2) ∧ ∀ e, x.1 = .error e → E e x.2) :
    Spec I B limits (Prog.perform o) Q E w :=
  wp_perform.mpr ⟨trivial, fun x hx => ⟨trivial, h x hx⟩⟩

theorem spec_startCheck (h : Calm B models w) :
    Spec I B limits startCheck (fun check w' => (check = .alive → Kept B models w w') ∧
      ∀ p, check = .stale p → Lost B models w') (fun _ _ => False) w := by
  refine spec_perform fun x hx => ?_
  obtain ⟨w₁, hdrift, rfl⟩ := outcome_drift hx nofun nofun nofun
  have hkept := hdrift.undisturbed.kept h
  rw [onHost, Host.exec]
  split_ifs
  · refine ⟨fun check hcheck => ⟨fun _ => hkept, fun p hp => ?_⟩, fun e he => ?_⟩
    · rw [← Except.ok.inj hcheck] at hp
      cases hp
    · cases he
  · refine ⟨fun check hcheck => ⟨fun halive => ?_, fun _ _ => hkept.calm.toWired.lost⟩,
      fun e he => ?_⟩
    · rw [← Except.ok.inj hcheck] at halive
      cases halive
    · cases he

theorem spec_abort (h : w.Wired) :
    Spec I B limits abort (fun _ w' => Lost B models w') (fun _ _ => False) w := by
  refine wp_bind.mpr (spec_perform fun x hx => ?_)
  obtain ⟨w₁, hdrift, rfl⟩ := outcome_drift hx nofun nofun nofun
  have hlost : Lost B models (w₁.setHost (w₁.host.setRunner w₁.host.runner.detached)) :=
    (hdrift.undisturbed.wired h).lost
  refine ⟨fun process _ => ?_, nofun⟩
  cases process with
  | none => exact wp_pure.mpr ⟨trivial, hlost⟩
  | some d =>
    refine spec_perform fun x hx => ?_
    obtain ⟨w₂, hdrift₂, rfl⟩ := outcome_drift hx nofun nofun nofun
    have hkept := hdrift₂.undisturbed.kept hlost.1
    refine ⟨fun _ _ => ⟨⟨⟨hkept.calm.owns, fun d hd => ?_⟩, hkept.calm.quiet, hkept.calm.sound⟩,
      ?_⟩, nofun⟩
    · exact ⟨(hkept.calm.future d hd).inbox, (hkept.calm.future d hd).state,
        (hkept.calm.future d hd).stream⟩
    · show w₂.host.runner.Detached
      rw [hkept.runner]
      exact hlost.2

/-- A handler that gives up the child. -/
theorem spec_abort_throw {α : Type} (h : w.Wired) (e : PyError) {Q : α → Supervised ρ → Prop} :
    Spec I B limits (abort >>= fun _ => (throw e : RunnerProg α)) Q (fun _ w' => Lost B models w')
      w :=
  wp_bind.mpr (wp_mono (spec_abort h) (fun _ _ _ hlost => wp_throw.mpr ⟨trivial, hlost⟩)
    (fun _ _ _ h => h.elim) fun _ h => h)

theorem spec_transportFailed {α : Type} {Q : α → Supervised ρ → Prop} (h : w.Wired) {e : PyError}
    (he : Host.isSocketError e) (deadlineError : Bool) (closed : PyStr) :
    Spec I B limits (transportFailed deadlineError closed e : RunnerProg α) Q
      (fun _ w' => Lost B models w') w := by
  unfold transportFailed
  by_cases htime : e.cls = .timeoutError
  · rw [if_pos htime]
    exact spec_abort_throw h _
  · rw [if_neg htime, if_pos (he.resolve_left htime)]
    exact spec_abort_throw h _

/-! ## Waiting for a reply -/

/-- The bytes of a child have been read up to `rest`. -/
structure ReadTo (w w' : Supervised ρ) (c : Child) (rest : Bytes) : Prop where
  runner : w'.host.runner = w.host.runner
  spawned : w'.host.spawned = w.host.spawned
  inbox : w'.inbox = w.inbox
  state : w'.state = w.state
  stream : w'.host.stream = Function.update w.host.stream c rest

theorem Wired.lt (h : w.Wired) (hc : w.host.runner.channel = some c) : c < w.host.spawned := by
  rcases h.owns with hdetached | ⟨d, -, hd, hlt⟩
  · rw [hdetached.channel] at hc
    cases hc
  · obtain rfl := Option.some.inj (hc.symm.trans hd)
    exact hlt

theorem ReadTo.wired {rest : Bytes} (h : ReadTo w w' c rest) (hw : w.Wired)
    (hc : w.host.runner.channel = some c) : w'.Wired := by
  refine ⟨h.runner ▸ h.spawned ▸ hw.owns, fun d hd => ?_⟩
  rw [h.spawned] at hd
  have hne : d ≠ c := Nat.ne_of_gt ((hw.lt hc).trans_le hd)
  have hfresh := hw.future d hd
  refine ⟨h.inbox ▸ hfresh.inbox, h.state ▸ hfresh.state, ?_⟩
  rw [h.stream, Function.update_of_ne hne]
  exact hfresh.stream

theorem spec_recvExact (h : w.Wired) (hc : w.host.runner.channel = some c) (size : Nat) :
    Spec I B limits (recvExact size)
      (fun data w' => ∃ w₁ rest, Drift I B limits w w₁ ∧ ReadTo w₁ w' c rest ∧
        w₁.host.stream c = data ++ rest ∧ data.length = size)
      (fun e w' => w'.Wired ∧ Host.isSocketError e) w := by
  have hexec : ∀ w₁, Drift I B limits w w₁ →
      (∀ data : Bytes, (onHost (.recvExact size) w₁).1 = .ok data → ∃ rest,
        ReadTo w₁ (onHost (.recvExact size) w₁).2 c rest ∧ w₁.host.stream c = data ++ rest ∧
          data.length = size) ∧
      ∀ e, (onHost (.recvExact size) w₁).1 = .error e →
        (onHost (.recvExact size) w₁).2.Wired ∧ Host.isSocketError e := by
    intro w₁ hdrift
    have hwired := hdrift.undisturbed.wired h
    have hc₁ : w₁.host.runner.channel = some c := hdrift.undisturbed.runner ▸ hc
    simp only [onHost, Host.exec, Host.recvExact, hc₁]
    split_ifs with hsize
    · refine ⟨fun data hdata => ?_, fun e he => ?_⟩
      · obtain rfl := Except.ok.inj hdata
        refine ⟨(w₁.host.stream c).drop size, ⟨rfl, rfl, rfl, rfl, rfl⟩,
          (List.take_append_drop _ _).symm, ?_⟩
        rw [List.length_take]
        exact min_eq_left hsize
      · cases he
    · refine ⟨fun data hdata => ?_, fun e he => ⟨?_, ?_⟩⟩
      · cases hdata
      · have hread : ReadTo w₁ (w₁.setHost ((w₁.host.setStream c []).fails
            (α := Bytes) closedError).2) c [] := ⟨rfl, rfl, rfl, rfl, rfl⟩
        exact hread.wired hwired hc₁
      · obtain rfl : closedError = e := Except.error.inj he
        exact Or.inr (Or.inl rfl)
  have hsettled : ∀ w₁, Drift I B limits w w₁ → Drift I B limits w (settled I B limits w₁) :=
    fun w₁ hdrift => hdrift.trans (drift_settled w₁)
  refine spec_perform fun x hx => ?_
  rcases hx with rfl | hx
  · have hdrift := hsettled w Relation.ReflTransGen.refl
    exact ⟨fun data hdata => ⟨_, (hexec _ hdrift).1 data hdata |>.imp fun _ h => ⟨hdrift, h⟩⟩,
      (hexec _ hdrift).2⟩
  · cases hx with
    | @drifts _ w₁ hdrift =>
      have hdrift' := hsettled w₁ hdrift
      exact ⟨fun data hdata => ⟨_, (hexec _ hdrift').1 data hdata |>.imp fun _ h => ⟨hdrift', h⟩⟩,
        (hexec _ hdrift').2⟩
    | @recv _ w₁ _ d n he hdrift hd =>
      have hwired := hdrift.undisturbed.wired h
      have hread : ReadTo w₁ (w₁.setHost (w₁.host.setStream d ((w₁.host.stream d).drop n))) d
          ((w₁.host.stream d).drop n) := ⟨rfl, rfl, rfl, rfl, rfl⟩
      refine ⟨fun data hdata => ?_, fun e' heq => ?_⟩
      · cases hdata
      · exact ⟨hread.wired hwired hd, Except.error.inj heq ▸ he⟩

/-- Whatever the child goes on to do, it sends at most one frame, and one that satisfies `Post`
with the state it is then in. -/
def Answers (I : Interpreter) (B : Backend ρ) (limits : WorkerLimits)
    (Post : Bytes → WorkerState ρ → Prop) (w : Supervised ρ) (c : Child) : Prop :=
  ∀ w₁, Drift I B limits w w₁ → w₁.host.stream c = [] ∨ ∃ frame, w₁.host.stream c = framed frame ∧
    (frame.length : Int) ≤ maxUint ∧ w₁.inbox c = [] ∧ Post frame (w₁.state c)

/-- The one frame has been read. -/
structure Received (Post : Bytes → WorkerState ρ → Prop) (w : Supervised ρ) (c : Child)
    (frame : Bytes) (w' : Supervised ρ) : Prop where
  wired : w'.Wired
  runner : w'.host.runner = w.host.runner
  quiet : w'.inbox c = [] ∧ w'.host.stream c = []
  post : Post frame (w'.state c)

theorem length_framed (frame : Bytes) : (framed frame).length = 8 + frame.length := by
  rw [framed, List.length_append, length_packLength]
  rfl

theorem spec_socketRecvFrame {Post : Bytes → WorkerState ρ → Prop} (h : w.Wired)
    (hc : w.host.runner.channel = some c) (hanswers : Answers I B limits Post w c)
    (maxReceive : Int) :
    Spec I B limits (socketRecvFrame maxReceive) (Received Post w c)
      (fun e w' => w'.Wired ∧ Host.isSocketError e) w := by
  refine wp_bind.mpr (wp_mono (spec_recvExact h hc framePrefixBytes) ?_ (fun _ _ _ h => h)
    fun _ h => h)
  rintro encoded w' - ⟨w₁, rest, hdrift, hread, hstream, hlen⟩
  have hwired := hread.wired (hdrift.undisturbed.wired h) (hdrift.undisturbed.runner ▸ hc)
  have hrunner : w'.host.runner = w.host.runner := hread.runner.trans hdrift.undisturbed.runner
  obtain ⟨frame, hframed, hmax, hinbox, hpost⟩ :
      ∃ frame, w₁.host.stream c = framed frame ∧ (frame.length : Int) ≤ maxUint ∧
        w₁.inbox c = [] ∧ Post frame (w₁.state c) := by
    refine (hanswers w₁ hdrift).resolve_left fun hnil => ?_
    rw [hnil] at hstream
    rw [(List.append_eq_nil_iff.mp hstream.symm).1] at hlen
    cases hlen
  obtain ⟨rfl, rfl⟩ : encoded = packLength frame.length ∧ rest = frame := by
    rw [hframed, framed] at hstream
    obtain ⟨hencoded, hrest⟩ := List.append_inj hstream ((length_packLength _).trans hlen.symm)
    exact ⟨hencoded.symm, hrest.symm⟩
  refine wp_bind.mpr (wp_liftM.mpr ⟨trivial, fun size hsize => ?_, fun e he =>
    ⟨hwired, parse_raises _ e he⟩⟩)
  refine wp_bind.mpr (wp_liftM.mpr ⟨trivial, fun _ _ => ?_, fun e he =>
    ⟨hwired, raisesOnly_raiseIf (Or.inr (Or.inr (Or.inr rfl))) e he⟩⟩)
  rw [parseFrameLength_packLength hmax] at hsize
  obtain rfl := Except.ok.inj hsize
  have hc' : w'.host.runner.channel = some c := hrunner ▸ hc
  refine wp_mono (spec_recvExact hwired hc' rest.length) ?_ (fun _ _ _ h => h) fun _ h => h
  rintro data w'' - ⟨w₂, rest', hdrift₂, hread₂, hstream₂, hlen₂⟩
  have hinbox' : w'.inbox c = [] := hread.inbox ▸ hinbox
  obtain ⟨hinbox₂, hstate₂, hsame₂⟩ := hdrift₂.undisturbed.quiet c hinbox'
  rw [hsame₂, hread.stream, Function.update_self] at hstream₂
  obtain ⟨rfl, hnil⟩ : data = rest ∧ rest' = [] := by
    have hcount := congrArg List.length hstream₂
    rw [List.length_append, hlen₂] at hcount
    have hnil := List.length_eq_zero_iff.mp (Nat.left_eq_add.mp hcount)
    rw [hnil, List.append_nil] at hstream₂
    exact ⟨hstream₂.symm, hnil⟩
  refine ⟨hread₂.wired (hdrift₂.undisturbed.wired hwired) (hdrift₂.undisturbed.runner ▸ hc'),
    hread₂.runner.trans (hdrift₂.undisturbed.runner.trans hrunner), ⟨?_, ?_⟩, ?_⟩
  · rw [hread₂.inbox]
    exact hinbox₂
  · rw [hread₂.stream, Function.update_self]
    exact hnil
  · rw [hread₂.state, hstate₂, hread.state]
    exact hpost

/-- `_receive_frame` reads the one frame, or gives up the child. -/
theorem spec_receiveFrame {Post : Bytes → WorkerState ρ → Prop} (h : w.Wired)
    (hc : w.host.runner.channel = some c) (hanswers : Answers I B limits Post w c)
    (maxReceive : Int) (deadlineError : Bool) :
    Spec I B limits (receiveFrame maxReceive deadlineError) (Received Post w c)
      (fun _ w' => Lost B models w') w := by
  refine wp_bind.mpr (spec_perform fun x hx => ?_)
  obtain ⟨w₁, hdrift, rfl⟩ := outcome_drift hx nofun nofun nofun
  have hwired := hdrift.undisturbed.wired h
  have hrunner := hdrift.undisturbed.runner
  refine ⟨fun b hb => ?_, nofun⟩
  cases b with
  | true =>
    refine wp_catch.mpr (wp_mono (spec_socketRecvFrame hwired (hrunner ▸ hc)
      (fun w₂ h₂ => hanswers w₂ (hdrift.trans h₂)) maxReceive) ?_ ?_ fun _ h => h)
    · rintro frame w₂ - hreceived
      exact ⟨hreceived.wired, hreceived.runner.trans hrunner, hreceived.quiet, hreceived.post⟩
    · rintro e w₂ - ⟨hwired₂, he⟩
      exact spec_transportFailed hwired₂ he _ _
  | false =>
    obtain ⟨d, hprocess, hchannel, -⟩ := h.owns.resolve_left fun hdetached => by
      rw [hdetached.channel] at hc
      cases hc
    have hfound : (w₁.host.runner.channel.isSome && w₁.host.runner.process.isSome) = false :=
      Except.ok.inj hb
    rw [hrunner, hprocess, hchannel] at hfound
    cases hfound

/-! ## Sending a frame -/

/-- A frame has been sent to a child in this state. -/
structure Sent (B : Backend ρ) (models : LoadArtifact → Prop) (w w' : Supervised ρ) (c : Child)
    (frame : Bytes) : Prop where
  wired : w'.Wired
  runner : w'.host.runner = w.host.runner
  channel : w.host.runner.channel = some c
  inbox : w'.inbox c = [frame]
  state : w'.state c = w.state c
  stream : w'.host.stream c = []
  sound : Sound B models (w.state c)

theorem respond_eq_some {s s' : WorkerState ρ} {frame reply : Bytes}
    (h : respond I B limits s frame = some (reply, s')) :
    serve I B limits s frame = .reply reply s' ∧ (reply.length : Int) ≤ maxUint := by
  unfold respond at h
  split_ifs at h
  split at h
  · cases h
  · split_ifs at h with hmax
    obtain ⟨rfl, rfl⟩ := Prod.mk.inj (Option.some.inj h)
    exact ⟨by assumption, Int.not_lt.mp hmax⟩

/-- A child that was sent a frame answers it or not at all. -/
theorem Sent.answers {frame : Bytes} (h : Sent B models w w' c frame) :
    Answers I B limits (fun reply s => serve I B limits (w.state c) frame = .reply reply s) w' c := by
  intro w₁ hdrift
  suffices (w₁.inbox c = [frame] ∧ w₁.state c = w.state c ∧ w₁.host.stream c = []) ∨
      ∃ reply, w₁.host.stream c = framed reply ∧ (reply.length : Int) ≤ maxUint ∧
        w₁.inbox c = [] ∧ serve I B limits (w.state c) frame = .reply reply (w₁.state c) from
    this.imp (fun h => h.2.2) id
  induction hdrift with
  | refl => exact Or.inl ⟨h.inbox, h.state, h.stream⟩
  | @tail w₁ w₂ _ hmove ih =>
    rcases ih with ⟨hinbox, hstate, hstream⟩ | ⟨reply, hstream, hmax, hinbox, hserve⟩
    · cases hmove with
      | ends d => exact Or.inl ⟨hinbox, hstate, hstream⟩
      | serves d =>
        by_cases hd : d = c
        · subst hd
          unfold serveNext
          rw [hinbox]
          dsimp only
          split_ifs
          · split
            · exact Or.inl ⟨hinbox, hstate, hstream⟩
            · rename_i reply s hrespond
              rw [hstate] at hrespond
              obtain ⟨hserve, hmax⟩ := respond_eq_some hrespond
              have hstate' : (w₁.answered d [] reply s).state d = s := Function.update_self _ _ _
              refine Or.inr ⟨reply, ?_, hmax, Function.update_self _ _ _,
                hserve.trans (congrArg _ hstate'.symm)⟩
              show Function.update _ d (_ ++ _) d = _
              rw [Function.update_self, hstream, List.nil_append]
          · exact Or.inl ⟨hinbox, hstate, hstream⟩
        · obtain ⟨hinbox', hstate', hstream'⟩ := serveNext_ne I B limits (Ne.symm hd) w₁
          exact Or.inl ⟨hinbox'.trans hinbox, hstate'.trans hstate, hstream'.trans hstream⟩
    · obtain ⟨hinbox', hstate', hstream'⟩ : w₂.inbox c = [] ∧ w₂.state c = w₁.state c ∧
          w₂.host.stream c = w₁.host.stream c := by
        cases hmove with
        | serves d => exact (undisturbed_serveNext d w₁).quiet c hinbox
        | ends d => exact (undisturbed_ended w₁ d).quiet c hinbox
      exact Or.inr ⟨reply, hstream'.trans hstream, hmax, hinbox', hstate' ▸ hserve⟩

theorem Calm.sent (h : Calm B models w) (hc : w.host.runner.channel = some c) (frame : Bytes) :
    Sent B models w (w.post c frame) c frame := by
  obtain ⟨hinbox, hstream⟩ := h.quiet c hc
  refine ⟨⟨h.owns, fun d hd => ?_⟩, rfl, hc, ?_, rfl, hstream, h.sound c hc⟩
  · have hne : d ≠ c := Nat.ne_of_gt ((h.toWired.lt hc).trans_le hd)
    have hfresh := h.future d hd
    exact ⟨(Function.update_of_ne hne _ _).trans hfresh.inbox, hfresh.state, hfresh.stream⟩
  · show Function.update w.inbox c _ c = _
    rw [Function.update_self, hinbox, List.nil_append]

theorem Kept.sent {frame : Bytes} (h : Kept B models w w') (hsent : Sent B models w' w'' c frame) :
    Sent B models w w'' c frame := by
  have hc : w.host.runner.channel = some c := h.runner ▸ hsent.channel
  have hstate := h.state c hc
  exact ⟨hsent.wired, hsent.runner.trans h.runner, hc, hsent.inbox, hsent.state.trans hstate,
    hsent.stream, hstate ▸ hsent.sound⟩

theorem spec_send (h : Calm B models w) (hc : w.host.runner.channel = some c) (frame : Bytes) :
    Spec I B limits (send frame) (fun _ w' => Sent B models w w' c frame)
      (fun e w' => w'.Wired ∧ Host.isSocketError e) w := by
  have hexec : ∀ w₁, Drift I B limits w w₁ →
      (∀ u : Unit, (exec I B limits (.send frame) w₁).1 = .ok u →
        Sent B models w (exec I B limits (.send frame) w₁).2 c frame) ∧
      ∀ e, (exec I B limits (.send frame) w₁).1 = .error e →
        (exec I B limits (.send frame) w₁).2.Wired ∧ Host.isSocketError e := by
    intro w₁ hdrift
    have hkept := hdrift.undisturbed.kept h
    have hc₁ : w₁.host.runner.channel = some c := hkept.runner ▸ hc
    simp only [exec, hc₁]
    split_ifs
    · refine ⟨nofun, fun e he => ⟨hkept.calm.toWired, ?_⟩⟩
      rw [← Except.error.inj he]
      exact Or.inr (Or.inr (Or.inr rfl))
    · exact ⟨fun _ _ => hkept.sent (hkept.calm.sent hc₁ frame), nofun⟩
  refine spec_perform fun x hx => ?_
  rcases hx with rfl | hx
  · exact hexec w Relation.ReflTransGen.refl
  · cases hx with
    | drifts hdrift => exact hexec _ hdrift
    | send he hdrift =>
      exact ⟨nofun, fun _ heq => ⟨hdrift.undisturbed.wired h.toWired, Except.error.inj heq ▸ he⟩⟩

/-- `_send_frame` sends the frame, or gives up the child. -/
theorem spec_sendFrame (h : Calm B models w) (frame : Bytes) (deadlineError : Bool) :
    Spec I B limits (sendFrame frame deadlineError) (fun _ w' => ∃ c, Sent B models w w' c frame)
      (fun _ w' => Lost B models w') w := by
  refine wp_bind.mpr (spec_perform fun x hx => ?_)
  obtain ⟨w₁, hdrift, rfl⟩ := outcome_drift hx nofun nofun nofun
  have hkept := hdrift.undisturbed.kept h
  refine ⟨fun b hb => ?_, nofun⟩
  cases b with
  | false => exact spec_abort_throw hkept.calm.toWired _
  | true =>
    have husable : w₁.host.runner.usable w₁.host.alive = true := Except.ok.inj hb
    rw [Fields.usable, Bool.and_eq_true] at husable
    obtain ⟨c, hc⟩ := Option.isSome_iff_exists.mp husable.1
    refine wp_catch.mpr (wp_mono (spec_send hkept.calm hc frame)
      (fun _ _ _ hsent => ⟨c, hkept.sent hsent⟩) ?_ fun _ h => h)
    rintro e w₂ - ⟨hwired, he⟩
    exact spec_transportFailed hwired he _ _

/-! ## Starting a child -/

/-- A child has been started, and its handshake is to be read. -/
structure Started (w : Supervised ρ) (c : Child) : Prop where
  wired : w.Wired
  channel : w.host.runner.channel = some c
  generation : w.host.runner.generation = none
  fresh : w.Fresh c

theorem Started.answers (h : w.Started c) :
    Answers I B limits (fun _ s => s = ⟨none, none⟩) w c := by
  intro w₁ hdrift
  have hfresh := hdrift.undisturbed.fresh h.fresh
  exact hfresh.stream.imp id fun ⟨frame, hframe, hmax⟩ =>
    ⟨frame, hframe, hmax, hfresh.inbox, hfresh.state⟩

theorem spec_spawn (h : Lost B models w) :
    Spec I B limits spawn (fun b w' => (b = true → ∃ c, w'.Started c) ∧
      (b = false → Lost B models w')) (fun _ w' => Lost B models w') w := by
  have hlost : ∀ w₁, Drift I B limits w w₁ → Lost B models w₁ := by
    intro w₁ hdrift
    have hkept := hdrift.undisturbed.kept h.1
    exact ⟨hkept.calm, hkept.runner ▸ h.2⟩
  have hexec : ∀ w₁, Drift I B limits w w₁ →
      (∀ b : Bool, (exec I B limits .spawn w₁).1 = .ok b →
        (b = true → ∃ c, (exec I B limits .spawn w₁).2.Started c) ∧
          (b = false → Lost B models (exec I B limits .spawn w₁).2)) ∧
      ∀ e, (exec I B limits .spawn w₁).1 = .error e →
        Lost B models (exec I B limits .spawn w₁).2 := by
    intro w₁ hdrift
    obtain ⟨hcalm, hdetached⟩ := hlost w₁ hdrift
    have husable : ¬w₁.host.runner.usable w₁.host.alive = true := by
      rw [Fields.usable, hdetached.channel]
      exact Bool.false_ne_true
    simp only [exec, onHost, Host.exec, Host.spawn, if_neg husable]
    refine ⟨fun b hb => ?_, fun e he => ?_⟩
    · obtain rfl : true = b := Except.ok.inj hb
      refine ⟨fun _ => ⟨w₁.host.spawned, ⟨Or.inr ⟨_, rfl, rfl, Nat.lt_succ_self _⟩, fun c hc => ?_⟩,
        rfl, rfl, ?_⟩, fun hfalse => ?_⟩
      · have hfresh := hcalm.future c (Nat.le_of_succ_le hc)
        exact ⟨hfresh.inbox, hfresh.state, hfresh.stream⟩
      · have hfresh := hcalm.future w₁.host.spawned (le_refl _)
        exact ⟨hfresh.inbox, hfresh.state, hfresh.stream⟩
      · cases hfalse
    · cases he
  refine spec_perform fun x hx => ?_
  rcases hx with rfl | hx
  · exact hexec w Relation.ReflTransGen.refl
  · cases hx with
    | drifts hdrift => exact hexec _ hdrift
    | spawn _ hdrift =>
      refine ⟨fun b hb => ?_, fun _ _ => hlost _ hdrift⟩
      cases hb

theorem sound_none : Sound B models ⟨none, none⟩ := by
  intro runtime g hs
  cases hs

/-- The handshake leaves the runner with a child that holds nothing, or with none. -/
theorem spec_handshake (h : w.Started c) (maxReceive : Int) :
    Spec I B limits (handshake I maxReceive) (fun _ w' => Blank B models w')
      (fun _ w' => Blank B models w') w := by
  refine wp_bind.mpr (wp_mono (spec_receiveFrame h.wired h.channel h.answers maxReceive false) ?_
    (fun _ _ _ hlost => hlost.blank) fun _ h => h)
  rintro frame w₁ - hreceived
  have hblank : Blank B models w₁ := by
    refine ⟨⟨hreceived.wired, fun d hd => ?_, fun d hd => ?_⟩, hreceived.runner ▸ h.generation⟩
    · rw [hreceived.runner, h.channel] at hd
      obtain rfl := Option.some.inj hd
      exact hreceived.quiet
    · rw [hreceived.runner, h.channel] at hd
      obtain rfl := Option.some.inj hd
      rw [hreceived.post]
      exact sound_none
  have habort : ∀ e, Spec I B limits (abort >>= fun _ => (throw e : RunnerProg Unit))
      (fun _ w' => Blank B models w') (fun _ w' => Blank B models w') w₁ := fun e =>
    wp_mono (spec_abort_throw hblank.1.toWired e) (fun _ _ _ h => h)
      (fun _ _ _ hlost => hlost.blank) fun _ h => h
  refine wp_catch.mpr (wp_mono (Q := fun _ w' => Blank B models w')
    (E := fun _ w' => Blank B models w') ?_ (fun _ _ _ h => h) ?_ fun _ h => h)
  · refine wp_bind.mpr (wp_liftM.mpr ⟨trivial, fun p _ => ?_, fun _ _ => hblank⟩)
    obtain ⟨header, payload⟩ := p
    dsimp only
    split_ifs
    · refine wp_bind.mpr (wp_liftM.mpr ⟨trivial, fun p _ => ?_, fun _ _ => hblank⟩)
      obtain ⟨code, message⟩ := p
      exact habort _
    · refine wp_bind.mpr (wp_liftM.mpr ⟨trivial, fun _ _ => ?_, fun _ _ => hblank⟩)
      exact wp_pure.mpr ⟨trivial, hblank⟩
  · intro e w₂ _ hblank₂
    split_ifs
    · exact wp_mono (spec_abort_throw hblank₂.1.toWired _) (fun _ _ _ h => h)
        (fun _ _ _ hlost => hlost.blank) fun _ h => h
    · exact wp_throw.mpr ⟨trivial, hblank₂⟩

/-- `start` keeps a child that is alive. -/
theorem spec_start (h : Calm B models w) (maxReceive : Int) :
    Spec I B limits (start I maxReceive) (fun _ w' => Kept B models w w' ∨ Blank B models w')
      (fun _ w' => Blank B models w') w := by
  refine wp_bind.mpr (wp_mono (spec_startCheck h) ?_ (fun _ _ _ h => h.elim) fun _ h => h)
  rintro check w₁ - ⟨hkept, hstale⟩
  cases check with
  | alive => exact wp_pure.mpr ⟨trivial, Or.inl (hkept rfl)⟩
  | stale process =>
    have hlost := hstale process rfl
    refine wp_bind.mpr (spec_perform fun x hx => ?_)
    obtain ⟨w₂, hdrift, rfl⟩ := outcome_drift hx nofun nofun nofun
    have hkept₂ := hdrift.undisturbed.kept hlost.1
    refine ⟨fun _ _ => ?_, nofun⟩
    refine wp_bind.mpr (wp_mono (spec_spawn ⟨hkept₂.calm, hkept₂.runner ▸ hlost.2⟩) ?_
      (fun _ _ _ hlost => hlost.blank) fun _ h => h)
    rintro started w₃ - ⟨htrue, hfalse⟩
    cases started with
    | true =>
      obtain ⟨c, hstarted⟩ := htrue rfl
      exact wp_mono (spec_handshake hstarted maxReceive) (fun _ _ _ h => Or.inr h)
        (fun _ _ _ h => h) fun _ h => h
    | false => exact wp_pure.mpr ⟨trivial, Or.inr (hfalse rfl).blank⟩

/-! ## Loading a model -/

/-- The child does not take this model. -/
def Refuses (I : Interpreter) (B : Backend ρ) (limits : WorkerLimits) (m : LoadArtifact) : Prop :=
  ∃ frame e, encodeLoadArtifact I m = .ok frame ∧ loadModel I B limits frame = .error e

theorem spec_setGeneration (h : Calm B models w) (hc : w.host.runner.channel = some c) (g : Int)
    {runtime : ρ} (hstate : w.state c = ⟨some runtime, some g⟩) :
    Spec I B limits (setGeneration g) (fun _ w' => Calm B models w' ∧
      w'.host.runner.generation = some g ∧ w'.Agrees) (fun _ _ => False) w := by
  refine spec_perform fun x hx => ?_
  obtain ⟨w₁, hdrift, rfl⟩ := outcome_drift hx nofun nofun nofun
  have hkept := hdrift.undisturbed.kept h
  have hc₁ : w₁.host.runner.channel = some c := hkept.runner ▸ hc
  refine ⟨fun _ _ => ⟨⟨⟨Or.inr (hkept.calm.owns.resolve_left fun hdetached => ?_), fun d hd => ?_⟩,
    hkept.calm.quiet, hkept.calm.sound⟩, rfl, fun g' d hg hd => ?_⟩, nofun⟩
  · rw [hdetached.channel] at hc₁
    cases hc₁
  · have hfresh := hkept.calm.future d hd
    exact ⟨hfresh.inbox, hfresh.state, hfresh.stream⟩
  · obtain rfl : g = g' := Option.some.inj hg
    obtain rfl : c = d := Option.some.inj (hc₁.symm.trans hd)
    exact ⟨runtime, (hkept.state c hc).trans hstate⟩

theorem sound_of_serve {m : LoadArtifact} {frame reply : Bytes} {s s' : WorkerState ρ}
    (hI : I.Lawful) (hm : models m) (hframe : encodeLoadArtifact I m = .ok frame)
    (h : serve I B limits s frame = .reply reply s') : Sound B models s' := by
  rcases serve_load hI hframe h with ⟨runtime, hruntime, rfl, -⟩ | ⟨rfl, -⟩
  · intro runtime' g hs
    cases hs
    exact ⟨m, hm, rfl, hruntime⟩
  · exact sound_none

theorem isOp_eq {header : List (PyStr × Json)} {op op' : PyStr}
    (h : Json.item header (py "op") = .str op) : isOp header op' = decide (op = op') := by
  rw [isOp, h]
  by_cases hop : op = op'
  · rw [decide_eq_true hop]
    exact pyEq_str.mpr (hop ▸ rfl)
  · rw [decide_eq_false hop, ← Bool.not_eq_true]
    exact fun hsame => hop (Json.str.inj (pyEq_str.mp hsame))

/-- What `load` makes of the reply to its frame. -/
theorem spec_readLoaded (hI : I.Lawful) (h : Calm B models w)
    (hc : w.host.runner.channel = some c) {m : LoadArtifact} {frame reply : Bytes}
    {s : WorkerState ρ} (hframe : encodeLoadArtifact I m = .ok frame)
    (hserve : serve I B limits s frame = .reply reply (w.state c)) :
    Spec I B limits (readLoaded I m.generation reply)
      (fun _ w' => Calm B models w' ∧ w'.host.runner.generation = some m.generation ∧ w'.Agrees)
      (fun e w' => w' = w ∧ (IsProtocolError e ∨
        e.cls ≠ .ipcProtocolError ∧ Refuses I B limits m)) w := by
  rcases serve_load hI hframe hserve with
    ⟨runtime, -, hstate, hreply⟩ | ⟨-, ⟨e, hrefused⟩, g, e', hreply⟩
  · obtain ⟨header, hdec, hop⟩ := decode_loaded hI hreply
    have hshallow := shallow_of_decodeFrame hdec
    refine wp_bind.mpr (wp_liftM.mpr ⟨trivial, fun p hp => ?_, fun e he =>
      ⟨rfl, Or.inl (decodeFrame_raises (le_refl _) hshallow e he)⟩⟩)
    rw [hdec] at hp
    obtain rfl := Except.ok.inj hp
    dsimp only
    rw [isOp_eq hop, if_pos (decide_eq_true rfl)]
    refine wp_bind.mpr (wp_liftM.mpr ⟨trivial, fun loaded _ => ?_, fun e he =>
      ⟨rfl, Or.inl (decodeGeneration_raises hshallow _ e he)⟩⟩)
    refine wp_bind.mpr (wp_liftM.mpr ⟨trivial, fun _ hsame => ?_, fun e he =>
      ⟨rfl, Or.inl (raiseIf_raises _ e he)⟩⟩)
    obtain rfl : loaded = m.generation := not_not.mp (raiseIf_eq_ok.mp hsame)
    exact wp_mono (spec_setGeneration h hc m.generation hstate) (fun _ _ _ h => h)
      (fun _ _ _ h => h.elim) fun _ h => h
  · obtain ⟨header, hdec, hop⟩ := decode_errorFrame hI hreply
    have hshallow := shallow_of_decodeFrame hdec
    refine wp_bind.mpr (wp_liftM.mpr ⟨trivial, fun p hp => ?_, fun e he =>
      ⟨rfl, Or.inl (decodeFrame_raises (le_refl _) hshallow e he)⟩⟩)
    rw [hdec] at hp
    obtain rfl := Except.ok.inj hp
    replace hop : Json.item header (py "op") = .str (py "load_error") := hop
    have hloaded : isOp header (py "loaded") = false := (isOp_eq hop).trans (by decide)
    have herror : isOp header (py "load_error") = true := (isOp_eq hop).trans (by decide)
    dsimp only
    rw [hloaded, herror, if_neg Bool.false_ne_true, if_pos rfl]
    refine wp_bind.mpr (wp_liftM.mpr ⟨trivial, fun p _ => ?_, fun e he =>
      ⟨rfl, Or.inl (decodeError_raises hshallow _ _ e he)⟩⟩)
    obtain ⟨generation, code, message⟩ := p
    refine wp_bind.mpr (wp_liftM.mpr ⟨trivial, fun _ _ => ?_, fun e he =>
      ⟨rfl, Or.inl (raiseIf_raises _ e he)⟩⟩)
    refine wp_throw.mpr ⟨trivial, rfl, Or.inr ⟨fun hcls => ?_, frame, e, hframe, hrefused⟩⟩
    cases hcls

/-- A reply that was awaited leaves the runner between calls. -/
theorem Sent.received {m : Bytes → WorkerState ρ → Prop} {w₁ w₂ : Supervised ρ}
    {frame reply : Bytes} (hsent : Sent B models w w₁ c frame) (h : Received m w₁ c reply w₂)
    (hsound : Sound B models (w₂.state c)) : Calm B models w₂ ∧ w₂.host.runner = w.host.runner := by
  have hrunner : w₂.host.runner = w.host.runner := h.runner.trans hsent.runner
  refine ⟨⟨h.wired, fun d hd => ?_, fun d hd => ?_⟩, hrunner⟩
  · rw [hrunner, hsent.channel] at hd
    obtain rfl := Option.some.inj hd
    exact h.quiet
  · rw [hrunner, hsent.channel] at hd
    obtain rfl := Option.some.inj hd
    exact hsound

/-- The exchange of `load`. -/
theorem spec_sendModel (hI : I.Lawful) (h : Calm B models w) {m : LoadArtifact} (hm : models m)
    {frame : Bytes} (hframe : encodeLoadArtifact I m = .ok frame) (maxReceive : Int) :
    Spec I B limits (sendModel I maxReceive m.generation frame)
      (fun _ w' => Calm B models w' ∧ w'.host.runner.generation = some m.generation ∧ w'.Agrees)
      (fun _ w' => Blank B models w' ∨ Calm B models w' ∧
        w'.host.runner.generation = w.host.runner.generation ∧ Refuses I B limits m) w := by
  refine wp_bind.mpr (wp_mono (spec_sendFrame h frame false) ?_
    (fun _ _ _ hlost => Or.inl hlost.blank) fun _ h => h)
  rintro _ w₁ - ⟨c, hsent⟩
  have hc₁ : w₁.host.runner.channel = some c := hsent.runner ▸ hsent.channel
  refine wp_bind.mpr (wp_mono (spec_receiveFrame hsent.wired hc₁ hsent.answers maxReceive false) ?_
    (fun _ _ _ hlost => Or.inl hlost.blank) fun _ h => h)
  rintro reply w₂ - hreceived
  have hserve := hreceived.post
  obtain ⟨hcalm, hrunner⟩ := hsent.received hreceived (sound_of_serve hI hm hframe hserve)
  have hc₂ : w₂.host.runner.channel = some c := hrunner ▸ hsent.channel
  refine wp_catch.mpr (wp_mono (spec_readLoaded hI hcalm hc₂ hframe hserve)
    (fun _ _ _ h => h) ?_ fun _ h => h)
  rintro e w₃ - ⟨rfl, he | ⟨he, hrefuses⟩⟩
  · rw [if_pos (show e.cls = .ipcProtocolError from he)]
    exact wp_mono (spec_abort_throw hcalm.toWired _) (fun _ _ _ h => h)
      (fun _ _ _ hlost => Or.inl hlost.blank) fun _ h => h
  · rw [if_neg he]
    exact wp_throw.mpr ⟨trivial, Or.inr ⟨hcalm, congrArg _ hrunner, hrefuses⟩⟩

/-- The runner believes that nothing is loaded, or this generation, or the child takes the
model. -/
def Replaceable (I : Interpreter) (B : Backend ρ) (limits : WorkerLimits) (m : LoadArtifact)
    (w : Supervised ρ) : Prop :=
  w.host.runner.generation = none ∨ w.host.runner.generation = some m.generation ∨
    ¬Refuses I B limits m

theorem spec_load (hI : I.Lawful) (h : Calm B models w) {prepared : Prepared}
    (hm : models prepared.artifact) (maxReceive : Int) :
    Spec I B limits (load I maxReceive prepared)
      (fun _ w' => Calm B models w' ∧ w'.host.runner.generation = some prepared.generation ∧
        (w.Agrees → w'.Agrees))
      (fun _ w' => Calm B models w' ∧ (Replaceable I B limits prepared.artifact w →
        w.Agrees → w'.Agrees)) w := by
  refine wp_bind.mpr (wp_mono (spec_start h maxReceive) ?_
    (fun _ _ _ hblank => ⟨hblank.1, fun _ _ => agrees_of_none hblank.2⟩) fun _ h => h)
  intro _ w₁ _ hstarted
  have hcalm₁ : Calm B models w₁ := hstarted.elim (·.calm) (·.1)
  refine wp_bind.mpr (spec_perform fun x hx => ?_)
  obtain ⟨w₂, hdrift, rfl⟩ := outcome_drift hx nofun nofun nofun
  have hkept := hdrift.undisturbed.kept hcalm₁
  refine ⟨fun loaded hloaded => ?_, nofun⟩
  obtain rfl : w₂.host.runner.generation = loaded := Except.ok.inj hloaded
  have hagrees : w.Agrees → w₂.Agrees := by
    intro hw
    rcases hstarted with hkept₁ | hblank
    · exact (hkept₁.trans hkept).agrees hw
    · exact agrees_of_none (hkept.runner ▸ hblank.2)
  have hgeneration : w₂.host.runner.generation = none ∨
      w₂.host.runner.generation = w.host.runner.generation := by
    rcases hstarted with hkept₁ | hblank
    · exact Or.inr (congrArg _ (hkept.runner.trans hkept₁.runner))
    · exact Or.inl (hkept.runner ▸ hblank.2)
  split_ifs with hsame
  · exact wp_pure.mpr ⟨trivial, hkept.calm, hsame, hagrees⟩
  · cases hencode : encodeLoadArtifact I prepared.artifact with
    | error e => exact wp_throw.mpr ⟨trivial, hkept.calm, fun _ => hagrees⟩
    | ok frame =>
      refine wp_mono (spec_sendModel hI hkept.calm hm hencode maxReceive) ?_ ?_ fun _ h => h
      · rintro _ w₃ - ⟨hcalm₃, hg, hagrees₃⟩
        exact ⟨hcalm₃, hg, fun _ => hagrees₃⟩
      · rintro e w₃ - (hblank | ⟨hcalm₃, hg, hrefuses⟩)
        · exact ⟨hblank.1, fun _ _ => agrees_of_none hblank.2⟩
        · refine ⟨hcalm₃, fun hreplaceable _ => agrees_of_none (hg.trans ?_)⟩
          refine hgeneration.elim id fun heq => ?_
          rcases hreplaceable with hnone | hsome | hnot
          · exact heq.trans hnone
          · exact absurd (heq.trans hsome) hsame
          · exact absurd hrefuses hnot

/-! ## Computing a result -/

/-- A model of the generation computes this array from the inputs. -/
def ComputedBy (B : Backend ρ) (limits : WorkerLimits) (models : LoadArtifact → Prop) (g : Int)
    (inputs array : NdArray UInt32) : Prop :=
  ∃ runtime, BuiltFrom B models g runtime ∧ Computes B limits runtime inputs array

/-- What is kept of a runner that only counts its requests. -/
structure Same (B : Backend ρ) (models : LoadArtifact → Prop) (w w' : Supervised ρ) : Prop where
  calm : Calm B models w'
  agrees : w.Agrees → w'.Agrees

theorem Blank.same (h : Blank B models w') : Same B models w w' :=
  ⟨h.1, fun _ => agrees_of_none h.2⟩

theorem Kept.same (h : Kept B models w w') : Same B models w w' := ⟨h.calm, h.agrees⟩

theorem Same.trans (h : Same B models w w') (h' : Same B models w' w'') : Same B models w w'' :=
  ⟨h'.calm, fun hw => h'.agrees (h.agrees hw)⟩

theorem spec_nextRequest (h : Calm B models w) :
    Spec I B limits nextRequest (fun _ w' => Same B models w w') (fun _ _ => False) w := by
  refine spec_perform fun x hx => ?_
  obtain ⟨w₁, hdrift, rfl⟩ := outcome_drift hx nofun nofun nofun
  have hkept := hdrift.undisturbed.kept h
  refine ⟨fun _ _ => ⟨⟨⟨?_, fun d hd => ?_⟩, hkept.calm.quiet, hkept.calm.sound⟩,
    fun hw g c hg hc => hkept.agrees hw g c hg hc⟩, nofun⟩
  · exact hkept.calm.owns.imp (fun h => ⟨h.process, h.channel, h.generation⟩) id
  · have hfresh := hkept.calm.future d hd
    exact ⟨hfresh.inbox, hfresh.state, hfresh.stream⟩

/-- What `execute` makes of the reply to its frame. -/
theorem spec_readResult (hI : I.Lawful) {p : Predict} {frame reply : Bytes} {s s' : WorkerState ρ}
    (hsound : Sound B models s) (hframe : encodePredict I p = .ok frame)
    (hserve : serve I B limits s frame = .reply reply s') (batch : Nat) (output : OutputLimits) :
    Spec I B limits (readResult I p.requestId batch output reply)
      (fun array w' => w' = w ∧ ComputedBy B limits models p.generation p.inputs array)
      (fun _ w' => w' = w) w := by
  obtain ⟨rows, cols, hshape⟩ := exists_shape_of_encode hframe
  refine wp_bind.mpr (wp_liftM.mpr ⟨trivial, fun decoded hdecoded => ?_, fun _ _ => rfl⟩)
  obtain ⟨header', payload⟩ := decoded
  dsimp only
  rcases (serve_predict hI hshape hframe hserve).2 with
    ⟨runtime, logits, rfl, hcomputes, hreply⟩ | ⟨e, hreply⟩
  · obtain ⟨classes, hlogits⟩ := hcomputes.shape
    split_ifs
    · refine wp_liftM.mpr ⟨trivial, fun array harray => ⟨rfl, runtime, ?_, ?_⟩, fun _ _ => rfl⟩
      · exact hsound runtime p.generation rfl
      · obtain ⟨⟨rfl, -⟩, -⟩ := ((decodeResult_encodeResult hI hlogits hreply).2 array).mp harray
        exact hcomputes
    · refine wp_bind.mpr (wp_liftM.mpr ⟨trivial, fun q _ => ?_, fun _ _ => rfl⟩)
      obtain ⟨id, code, message⟩ := q
      exact wp_bind.mpr (wp_liftM.mpr ⟨trivial, fun _ _ => wp_throw.mpr ⟨trivial, rfl⟩,
        fun _ _ => rfl⟩)
    · exact wp_throw.mpr ⟨trivial, rfl⟩
  · obtain ⟨header, hdec, hop⟩ := decode_errorFrame hI hreply
    replace hop : Json.item header (py "op") = .str (py "error") := hop
    obtain ⟨hpair, -⟩ := (decodeFrame_iff hdec).mp hdecoded
    obtain ⟨rfl, rfl⟩ := Prod.mk.inj hpair
    have hresult : isOp header' (py "result") = false := (isOp_eq hop).trans (by decide)
    rw [hresult, if_neg Bool.false_ne_true]
    split_ifs
    · refine wp_bind.mpr (wp_liftM.mpr ⟨trivial, fun q _ => ?_, fun _ _ => rfl⟩)
      obtain ⟨id, code, message⟩ := q
      exact wp_bind.mpr (wp_liftM.mpr ⟨trivial, fun _ _ => wp_throw.mpr ⟨trivial, rfl⟩,
        fun _ _ => rfl⟩)
    · exact wp_throw.mpr ⟨trivial, rfl⟩

/-- The exchange of `execute`. -/
theorem spec_sendInputs (hI : I.Lawful) (h : Calm B models w) {p : Predict} {frame : Bytes}
    (hframe : encodePredict I p = .ok frame) (maxReceive : Int) (batch : Nat)
    (output : OutputLimits) :
    Spec I B limits (sendInputs I maxReceive p.requestId batch output frame)
      (fun array w' => Same B models w w' ∧ ComputedBy B limits models p.generation p.inputs array)
      (fun _ w' => Same B models w w') w := by
  refine wp_bind.mpr (wp_mono (spec_sendFrame h frame true) ?_
    (fun _ _ _ hlost => hlost.blank.same) fun _ h => h)
  rintro _ w₁ - ⟨c, hsent⟩
  have hc₁ : w₁.host.runner.channel = some c := hsent.runner ▸ hsent.channel
  refine wp_bind.mpr (wp_mono (spec_receiveFrame hsent.wired hc₁ hsent.answers maxReceive true) ?_
    (fun _ _ _ hlost => hlost.blank.same) fun _ h => h)
  rintro reply w₂ - hreceived
  have hserve := hreceived.post
  obtain ⟨rows, cols, hshape⟩ := exists_shape_of_encode hframe
  have hstate := (serve_predict hI hshape hframe hserve).1
  obtain ⟨hcalm, hrunner⟩ := hsent.received hreceived (hstate ▸ hsent.sound)
  have hkept : Kept B models w w₂ := by
    refine ⟨hcalm, hrunner, fun d hd => ?_⟩
    obtain rfl := Option.some.inj (hsent.channel.symm.trans hd)
    exact hstate
  refine wp_catch.mpr (wp_mono (spec_readResult hI hsent.sound hframe hserve batch output) ?_ ?_
    fun _ h => h)
  · rintro array w₃ - ⟨rfl, hcomputed⟩
    exact ⟨hkept.same, hcomputed⟩
  · rintro e w₃ - rfl
    split_ifs
    · exact wp_mono (spec_abort_throw hcalm.toWired _) (fun _ _ _ h => h)
        (fun _ _ _ hlost => hlost.blank.same) fun _ h => h
    · exact wp_throw.mpr ⟨trivial, hkept.same⟩

theorem spec_execute (hI : I.Lawful) (h : Calm B models w) {prepared : Prepared}
    (hm : models prepared.artifact) (maxReceive : Int) (output : OutputLimits) :
    Spec I B limits (execute I maxReceive prepared output)
      (fun array w' => Same B models w w' ∧
        ComputedBy B limits models prepared.generation prepared.inputs array)
      (fun _ w' => Calm B models w' ∧ (Replaceable I B limits prepared.artifact w →
        w.Agrees → w'.Agrees)) w := by
  refine wp_bind.mpr (wp_mono (spec_load hI h hm maxReceive) ?_ (fun _ _ _ h => h) fun _ h => h)
  rintro _ w₁ - ⟨hcalm₁, -, hagrees₁⟩
  refine wp_bind.mpr (wp_mono (spec_nextRequest hcalm₁) ?_ (fun _ _ _ h => h.elim) fun _ h => h)
  intro request w₂ _ hsame₂
  have hsame : Same B models w w₂ := ⟨hsame₂.calm, fun hw => hsame₂.agrees (hagrees₁ hw)⟩
  cases hencode : encodePredict I ⟨request, prepared.generation, prepared.inputs⟩ with
  | error e => exact wp_throw.mpr ⟨trivial, hsame.calm, fun _ => hsame.agrees⟩
  | ok frame =>
    refine wp_mono (spec_sendInputs hI hsame₂.calm hencode maxReceive prepared.batch output) ?_ ?_
      fun _ h => h
    · rintro array w₃ - ⟨hsame₃, hcomputed⟩
      exact ⟨hsame.trans hsame₃, hcomputed⟩
    · exact fun _ _ _ hsame₃ => ⟨hsame₃.calm, fun _ => (hsame.trans hsame₃).agrees⟩

end Supervised
end ProcessRunner
end Runtime
end EdgeFort
