/-
The deployment state and the pending anchor journal, and the parsers that accept
them (`types.py`, `deploy.py`).
-/
import EdgeFort.Registry.Version

namespace EdgeFort

open Effect

inductive Slot where
  | A
  | B
  deriving DecidableEq, Repr

namespace Slot

def name : Slot → PyStr
  | A => "A"
  | B => "B"

/-- The slot a deployment over `active` goes to. -/
def inactive (active : Option Slot) : Slot := if active = some A then B else A

theorem inactive_ne (active : Option Slot) : active ≠ some (inactive active) := by
  rcases active with _ | s
  · simp
  · cases s <;> simp [inactive]

def ofName (s : PyStr) : Option Slot :=
  if s = py "A" then some A else if s = py "B" then some B else none

@[simp] theorem ofName_name (s : Slot) : ofName s.name = some s := by cases s <;> decide

/-- `active_slot` and `previous_slot` as JSON. -/
def toJson : Option Slot → Json
  | none => .null
  | some s => .str s.name

end Slot

inductive DeploymentStatus where
  | empty
  | staged
  | active
  | failed
  | rolledBack
  deriving DecidableEq, Repr

namespace DeploymentStatus

def value : DeploymentStatus → PyStr
  | empty => "empty"
  | staged => "staged"
  | active => "active"
  | failed => "failed"
  | rolledBack => "rolled_back"

/-- `_VALID_STATUSES`, by the status each value names. -/
def ofValue (s : PyStr) : Option DeploymentStatus :=
  [empty, staged, active, failed, rolledBack].find? fun status => status.value = s

@[simp] theorem ofValue_value (s : DeploymentStatus) : ofValue s.value = some s := by
  cases s <;> decide

end DeploymentStatus

/-- The version recorded for each slot. -/
structure Slots where
  a : Option PyStr
  b : Option PyStr
  deriving DecidableEq, Repr

namespace Slots

def get (slots : Slots) : Slot → Option PyStr
  | .A => slots.a
  | .B => slots.b

def set (slots : Slots) (s : Slot) (version : PyStr) : Slots :=
  match s with
  | .A => { slots with a := some version }
  | .B => { slots with b := some version }

@[simp] theorem get_set_self (slots : Slots) (s : Slot) (v : PyStr) :
    (slots.set s v).get s = some v := by cases s <;> rfl

theorem get_set (slots : Slots) (s t : Slot) (v : PyStr) :
    (slots.set s v).get t = if t = s then some v else slots.get t := by
  cases s <;> cases t <;> rfl

def versionJson : Option PyStr → Json
  | none => .null
  | some v => .str v

def toJson (slots : Slots) : Json :=
  .obj [(py "A", versionJson slots.a), (py "B", versionJson slots.b)]

end Slots

structure DeploymentState where
  generation : Nat := 0
  activeSlot : Option Slot := none
  previousSlot : Option Slot := none
  slots : Slots := ⟨none, none⟩
  highestReleaseSequence : Int := -1
  status : DeploymentStatus := .empty
  lastError : Option PyStr := none
  deriving DecidableEq, Repr

/-- The record `_write_pending_anchor` journals before the anchor advances. -/
structure PendingAnchor where
  previousGeneration : Nat
  previousFloor : Int
  targetSlot : Slot
  version : PyStr
  releaseSequence : Int
  deriving DecidableEq, Repr

/-! ## Readers of single fields -/

namespace Json

/-- `value in names`; an unhashable value raises. -/
def memberOf {α : Type} (value : Json) (names : PyStr → Option α) : Except PyError (Option α) :=
  match value with
  | .arr _ => .error (raise .typeError "unhashable type: 'list'")
  | .obj _ => .error (raise .typeError "unhashable type: 'dict'")
  | .str s => .ok (names s)
  | _ => .ok none

/-- An integer that is not a boolean and satisfies `p`. -/
def intWhere (value : Json) (p : Int → Bool) (e : PyError) : Except PyError Int :=
  match value with
  | .int i => if p i then .ok i else .error e
  | _ => .error e

def asObject (value : Json) (e : PyError) : Except PyError (List (PyStr × Json)) :=
  match value with
  | .obj fields => .ok fields
  | _ => .error e

/-- `safe_version(value)`, whose `ValueError` the callers turn into `e`. -/
def asVersion (value : Json) (e : PyError) : Except PyError PyStr :=
  match value with
  | .str s => if semverMatch s then .ok s else .error e
  | _ => .error e

theorem intWhere_ok {value : Json} {p : Int → Bool} {e : PyError} {i : Int} :
    value.intWhere p e = .ok i ↔ value = .int i ∧ p i = true := by
  unfold intWhere
  cases value with
  | int j =>
    by_cases h : p j = true
    · simp only [h, if_true, Except.ok.injEq, Json.int.injEq]
      exact ⟨fun e => ⟨e, e ▸ h⟩, And.left⟩
    · simp only [h, if_false, Json.int.injEq, reduceCtorEq, false_iff, not_and, Bool.false_eq_true]
      exact fun e hp => h (e ▸ hp)
  | _ => simp

theorem asObject_ok {value : Json} {e : PyError} {fields : List (PyStr × Json)} :
    value.asObject e = .ok fields ↔ value = .obj fields := by
  cases value <;> simp [asObject]

theorem asVersion_ok {value : Json} {e : PyError} {v : PyStr} :
    value.asVersion e = .ok v ↔ value = .str v ∧ semverMatch v = true := by
  unfold asVersion
  cases value with
  | str s =>
    by_cases h : semverMatch s = true
    · simp only [h, if_true, Except.ok.injEq, Json.str.injEq]
      exact ⟨fun e => ⟨e, e ▸ h⟩, And.left⟩
    · simp only [h, if_false, Json.str.injEq, reduceCtorEq, false_iff, not_and, Bool.false_eq_true]
      exact fun e hp => h (e ▸ hp)
  | _ => simp

end Json

/-! ## The state file -/

namespace DeploymentState

def maxErrorChars : Nat := 4096

def fieldNames : List PyStr :=
  [py "generation", py "active_slot", py "previous_slot", py "slots",
    py "highest_release_sequence", py "status", py "last_error"]

def errorJson : Option PyStr → Json
  | none => .null
  | some text => .str text

/-- `asdict(self)` -/
def fields (st : DeploymentState) : List (PyStr × Json) :=
  [(py "generation", .int st.generation),
    (py "active_slot", Slot.toJson st.activeSlot),
    (py "previous_slot", Slot.toJson st.previousSlot),
    (py "slots", st.slots.toJson),
    (py "highest_release_sequence", .int st.highestReleaseSequence),
    (py "status", .str st.status.value),
    (py "last_error", errorJson st.lastError)]

def toDict (st : DeploymentState) : Json := .obj st.fields

/-- The slots that hold a version are the active and the previous one. -/
def populatedAllowed (active previous : Option Slot) (slots : Slots) (s : Slot) : Bool :=
  (slots.get s).isNone || active = some s || previous = some s

def parseSlot (value : Json) (e : PyError) : Except PyError (Option Slot) :=
  match value with
  | .null => .ok none
  | value => do
    match ← value.memberOf Slot.ofName with
    | some s => return some s
    | none => throw e

def parseVersion (value : Json) (e : PyError) : Except PyError (Option PyStr) :=
  match value with
  | .null => .ok none
  | value => some <$> value.asVersion e

def parseSlots (value : Json) : Except PyError Slots := do
  let wrong := raise .deploymentError "deployment slots must contain exactly A and B"
  let fields ← value.asObject wrong
  raiseIf (Json.keysAre fields [py "A", py "B"] = false) wrong
  let a ← parseVersion (Json.item fields "A")
    (raise .deploymentError "invalid version in slot A")
  let b ← parseVersion (Json.item fields "B")
    (raise .deploymentError "invalid version in slot B")
  return ⟨a, b⟩

def parseStatus (value : Json) : Except PyError DeploymentStatus := do
  match ← value.memberOf DeploymentStatus.ofValue with
  | some status => return status
  | none => throw (raise .deploymentError "invalid deployment status")

def parseError (value : Json) : Except PyError (Option PyStr) :=
  match value with
  | .null => .ok none
  | .str text => do
    raiseIf (maxErrorChars < text.length)
      (raise .deploymentError "deployment error field exceeds size limit")
    return some text
  | _ => .error (raise .deploymentError "invalid deployment error field")

/-- `_parse_state` -/
def parseState (data : Json) : Except PyError DeploymentState := do
  let fields ← data.asObject (raise .deploymentError "deployment state must be a JSON object")
  raiseIf (Json.keysAre fields fieldNames = false)
    (raise .deploymentError "deployment state has missing or unknown fields")
  let generation ← (Json.item fields "generation").intWhere (fun i => 0 ≤ i)
    (raise .deploymentError "invalid deployment generation")
  let floor ← (Json.item fields "highest_release_sequence").intWhere
    (fun i => -1 ≤ i && i ≤ maxReleaseSequence)
    (raise .deploymentError "invalid anti-rollback floor")
  let active ← parseSlot (Json.item fields "active_slot")
    (raise .deploymentError "invalid active slot")
  let previous ← parseSlot (Json.item fields "previous_slot")
    (raise .deploymentError "invalid previous slot")
  raiseIf (active ≠ none ∧ active = previous)
    (raise .deploymentError "active and previous slots must differ")
  let slots ← parseSlots (Json.item fields "slots")
  raiseIf (active.any fun s => (slots.get s).isNone)
    (raise .deploymentError "active slot has no version")
  raiseIf (previous.any fun s => (slots.get s).isNone)
    (raise .deploymentError "previous slot has no version")
  raiseIf (active = none ∧ slots ≠ ⟨none, none⟩)
    (raise .deploymentError "deployment state has slot data but no active slot")
  raiseIf (active ≠ none ∧ ¬(populatedAllowed active previous slots .A ∧
      populatedAllowed active previous slots .B))
    (raise .deploymentError "populated slot is not active or previous")
  let status ← parseStatus (Json.item fields "status")
  let lastError ← parseError (Json.item fields "last_error")
  return {
    generation := generation.toNat
    activeSlot := active
    previousSlot := previous
    slots := slots
    highestReleaseSequence := floor
    status := status
    lastError := lastError }

/-- The states `_parse_state` accepts. -/
structure WellFormed (st : DeploymentState) : Prop where
  floor_ge : -1 ≤ st.highestReleaseSequence
  floor_le : st.highestReleaseSequence ≤ maxReleaseSequence
  distinct : st.activeSlot = none ∨ st.activeSlot ≠ st.previousSlot
  versions : ∀ s v, st.slots.get s = some v → semverMatch v = true
  active : ∀ s, st.activeSlot = some s → st.slots.get s ≠ none
  previous : ∀ s, st.previousSlot = some s → st.slots.get s ≠ none
  populated : ∀ s, st.slots.get s ≠ none → st.activeSlot = some s ∨ st.previousSlot = some s
  active_first : st.activeSlot = none → st.slots = ⟨none, none⟩
  error_le : ∀ text, st.lastError = some text → text.length ≤ maxErrorChars

theorem parseSlot_toJson (s : Option Slot) (e : PyError) : parseSlot (Slot.toJson s) e = .ok s := by
  rcases s with _ | s
  · rfl
  · simp [Slot.toJson, parseSlot, Json.memberOf, ok_bind, pure, Except.pure]

theorem parseVersion_versionJson {v : Option PyStr} {e : PyError}
    (h : ∀ x, v = some x → semverMatch x = true) : parseVersion (Slots.versionJson v) e = .ok v := by
  rcases v with _ | v
  · rfl
  · simp [Slots.versionJson, parseVersion, Json.asVersion, h v rfl]

theorem parseError_errorJson {text : Option PyStr}
    (h : ∀ t, text = some t → t.length ≤ maxErrorChars) : parseError (errorJson text) = .ok text := by
  rcases text with _ | t
  · rfl
  · have := h t rfl
    simp [errorJson, parseError, raiseIf_neg (Nat.not_lt.mpr this), ok_bind, pure, Except.pure]

theorem parseSlots_toJson {slots : Slots}
    (h : ∀ s v, slots.get s = some v → semverMatch v = true) :
    parseSlots slots.toJson = .ok slots := by
  simp only [parseSlots, bind_eq_ok, raiseIf_eq_ok, pure_eq_ok]
  exact ⟨_, rfl, (), (nomatch ·), slots.a, parseVersion_versionJson (h .A),
    slots.b, parseVersion_versionJson (h .B), rfl⟩

theorem parseStatus_value (s : DeploymentStatus) : parseStatus (.str s.value) = .ok s := by
  simp [parseStatus, Json.memberOf, ok_bind, pure, Except.pure]

section
variable (st : DeploymentState)

theorem keysAre_fields : Json.keysAre st.fields fieldNames = true := rfl
theorem item_generation : Json.item st.fields "generation" = .int st.generation := rfl
theorem item_activeSlot : Json.item st.fields "active_slot" = Slot.toJson st.activeSlot := rfl
theorem item_previousSlot : Json.item st.fields "previous_slot" = Slot.toJson st.previousSlot := rfl
theorem item_slots : Json.item st.fields "slots" = st.slots.toJson := rfl
theorem item_floor :
    Json.item st.fields "highest_release_sequence" = .int st.highestReleaseSequence := rfl
theorem item_status : Json.item st.fields "status" = .str st.status.value := rfl
theorem item_lastError : Json.item st.fields "last_error" = errorJson st.lastError := rfl

end

/-- An object with the fields of a well-formed state, in any order, is read as the state. -/
theorem parseState_fields {st : DeploymentState} (h : st.WellFormed)
    {items : List (PyStr × Json)} (hkeys : Json.keysAre items fieldNames = true)
    (hitems : ∀ k ∈ fieldNames, Json.item items k = Json.item st.fields k) :
    parseState (.obj items) = .ok st := by
  have hnamed : ∀ named : Option Slot, (∀ s, named = some s → st.slots.get s ≠ none) →
      ¬((named.any fun s => (st.slots.get s).isNone) = true) := by
    intro named hn
    rcases named with _ | s
    · simp
    · simpa [Option.isNone_iff_eq_none] using hn s rfl
  have hallowed : ∀ s, populatedAllowed st.activeSlot st.previousSlot st.slots s = true := by
    intro s
    by_cases hs : st.slots.get s = none
    · simp [populatedAllowed, hs]
    · rcases h.populated s hs with hp | hp <;> simp [populatedAllowed, hp]
  simp only [fieldNames, List.forall_mem_cons] at hitems
  obtain ⟨hgeneration, hactive, hprevious, hslots, hfloor, hstatus, herror, -⟩ := hitems
  simp only [parseState, bind_eq_ok, raiseIf_eq_ok, pure_eq_ok, Json.asObject_ok,
    Json.intWhere_ok, Json.obj.injEq]
  refine ⟨_, rfl, (), by rw [hkeys]; simp,
    _, ⟨hgeneration.trans (item_generation st), by simp⟩,
    _, ⟨hfloor.trans (item_floor st), by simp [h.floor_ge, h.floor_le]⟩,
    _, hactive.trans (item_activeSlot st) ▸ parseSlot_toJson _ _,
    _, hprevious.trans (item_previousSlot st) ▸ parseSlot_toJson _ _,
    (), ?_, _, hslots.trans (item_slots st) ▸ parseSlots_toJson h.versions, (), hnamed _ h.active,
    (), hnamed _ h.previous, (), ?_, (), ?_,
    _, hstatus.trans (item_status st) ▸ parseStatus_value _,
    _, herror.trans (item_lastError st) ▸ parseError_errorJson h.error_le, by simp⟩
  · exact fun ⟨hne, heq⟩ => h.distinct.elim hne fun hd => hd heq
  · exact fun ⟨hn, hs⟩ => hs (h.active_first hn)
  · exact fun ⟨_, hn⟩ => hn ⟨hallowed .A, hallowed .B⟩

/-- A well-formed state is read back as it was written. -/
theorem parseState_toDict {st : DeploymentState} (h : st.WellFormed) :
    parseState st.toDict = .ok st :=
  parseState_fields h (keysAre_fields st) fun _ _ => rfl

theorem parseVersion_ok {value : Json} {e : PyError} {v : Option PyStr}
    (h : parseVersion value e = .ok v) : ∀ x, v = some x → semverMatch x = true := by
  rintro x rfl
  unfold parseVersion at h
  split at h
  · cases h
  · cases hv : value.asVersion e with
    | error e' => simp [hv] at h
    | ok y =>
      simp only [hv, Except.map_ok, Except.ok.injEq, Option.some.injEq] at h
      exact h ▸ (Json.asVersion_ok.mp hv).2

theorem parseError_ok {value : Json} {text : Option PyStr} (h : parseError value = .ok text) :
    ∀ t, text = some t → t.length ≤ maxErrorChars := by
  rintro t rfl
  unfold parseError at h
  split at h
  · cases h
  · simp only [bind_eq_ok, raiseIf_eq_ok, pure_eq_ok, Option.some.injEq] at h
    obtain ⟨_, hle, rfl⟩ := h
    exact Nat.not_lt.mp hle
  · cases h

/-- Every state the parser accepts is well-formed. -/
theorem parseState_ok {data : Json} {st : DeploymentState} (h : parseState data = .ok st) :
    st.WellFormed := by
  simp only [parseState, parseSlots, bind_eq_ok, raiseIf_eq_ok, pure_eq_ok, Json.asObject_ok,
    Json.intWhere_ok] at h
  obtain ⟨_, _, _, _, generation, ⟨_, hgen⟩, floor, ⟨_, hfloor⟩, active, _, previous, _, _,
    hdistinct, slots, ⟨_, _, _, _, a, ha, b, hb, hslots⟩, _, hactive, _, hprevious, _, hfirst, _,
    hpop, status, _, lastError, herror, rfl⟩ := h
  simp only [Bool.and_eq_true, decide_eq_true_eq] at hfloor
  have hnone : active = none → slots = ⟨none, none⟩ := by
    intro hn
    by_contra hne
    exact hfirst ⟨hn, hne⟩
  have hallowed : active ≠ none → ∀ s, populatedAllowed active previous slots s = true := by
    intro hn s
    have := not_not.mp fun hall => hpop ⟨hn, hall⟩
    cases s
    · exact this.1
    · exact this.2
  have hnamed : ∀ named : Option Slot, ¬((named.any fun s => (slots.get s).isNone) = true) →
      ∀ s, named = some s → slots.get s ≠ none := by
    rintro named hn s rfl hs
    exact hn (by simp [hs])
  exact {
    floor_ge := hfloor.1
    floor_le := hfloor.2
    distinct := by
      by_cases hn : active = none
      · exact Or.inl hn
      · exact Or.inr fun heq => hdistinct ⟨hn, heq⟩
    versions := by
      subst hslots
      intro s v hs
      cases s
      · exact parseVersion_ok ha v hs
      · exact parseVersion_ok hb v hs
    active := hnamed _ hactive
    previous := hnamed _ hprevious
    populated := by
      intro s hs
      by_cases hn : active = none
      · rw [hnone hn] at hs
        cases s <;> exact absurd rfl hs
      · have := hallowed hn s
        simpa [populatedAllowed, hs] using this
    active_first := hnone
    error_le := parseError_ok herror }

theorem parseVersion_self {v w : Option PyStr} {e : PyError}
    (h : parseVersion (Slots.versionJson v) e = .ok w) : w = v := by
  rcases v with _ | v
  · exact (Except.ok.inj h).symm
  · cases hv : (Json.str v).asVersion e with
    | error e' => simp [Slots.versionJson, parseVersion, hv] at h
    | ok x =>
      simp only [Slots.versionJson, parseVersion, hv, Except.map_ok, Except.ok.injEq] at h
      rw [← h, Json.str.inj (Json.asVersion_ok.mp hv).1]

theorem parseError_self {t u : Option PyStr} (h : parseError (errorJson t) = .ok u) : u = t := by
  rcases t with _ | t
  · exact (Except.ok.inj h).symm
  · simp only [errorJson, parseError, bind_eq_ok, pure_eq_ok] at h
    obtain ⟨_, -, rfl⟩ := h
    rfl

/-- What the writer's check reads from a state's own fields is the state. -/
theorem parseState_self {st st' : DeploymentState} (h : parseState st.toDict = .ok st') :
    st' = st := by
  simp only [toDict, parseState, parseSlots, bind_eq_ok, raiseIf_eq_ok, pure_eq_ok,
    Json.asObject_ok, Json.intWhere_ok, Json.obj.injEq] at h
  obtain ⟨_, rfl, _, _, generation, ⟨hgen, _⟩, floor, ⟨hfloor, _⟩, active, hactive, previous,
    hprevious, _, _, slots, ⟨_, hfields, _, _, a, ha, b, hb, rfl⟩, _, _, _, _, _, _, _, _, status,
    hstatus, error, herror, rfl⟩ := h
  obtain rfl := Json.obj.inj hfields
  have hgen := Json.int.inj hgen
  have hfloor := Json.int.inj hfloor
  have hactive := Except.ok.inj ((parseSlot_toJson _ _).symm.trans hactive)
  have hprevious := Except.ok.inj ((parseSlot_toJson _ _).symm.trans hprevious)
  have hstatus := Except.ok.inj ((parseStatus_value _).symm.trans hstatus)
  have ha := parseVersion_self ha
  have hb := parseVersion_self hb
  have herror := parseError_self herror
  cases st
  simp only at hgen hfloor hactive hprevious hstatus ha hb herror
  simp [← hgen, ← hfloor, ← hactive, ← hprevious, ← hstatus, ha, hb, herror]

end DeploymentState

/-! ## The pending anchor journal -/

namespace PendingAnchor

def fieldNames : List PyStr :=
  [py "schema_version", py "previous_generation", py "previous_floor", py "target_slot",
    py "version", py "release_sequence"]

def fields (p : PendingAnchor) : List (PyStr × Json) :=
  [(py "schema_version", .int 1),
    (py "previous_generation", .int p.previousGeneration),
    (py "previous_floor", .int p.previousFloor),
    (py "target_slot", .str p.targetSlot.name),
    (py "version", .str p.version),
    (py "release_sequence", .int p.releaseSequence)]

def toDict (p : PendingAnchor) : Json := .obj p.fields

def parseTarget (value : Json) : Except PyError Slot := do
  match ← value.memberOf Slot.ofName with
  | some s => return s
  | none => throw (raise .deploymentError "invalid pending anchor target slot")

/-- `_parse_pending_anchor`.  The schema version is compared with `!=`, so `1.0`
and `true` pass for 1. -/
def parsePendingAnchor (data : Json) : Except PyError PendingAnchor := do
  let fields ← data.asObject (raise .deploymentError "pending anchor commit must be a JSON object")
  raiseIf (Json.keysAre fields fieldNames = false ∨
      (Json.item fields "schema_version").pyEq (.int 1) = false)
    (raise .deploymentError "invalid pending anchor commit structure")
  let generation ← (Json.item fields "previous_generation").intWhere (fun i => 0 ≤ i)
    (raise .deploymentError "invalid pending anchor generation")
  let previousFloor ← (Json.item fields "previous_floor").intWhere (fun i => -1 ≤ i)
    (raise .deploymentError "invalid pending anchor previous floor")
  let targetSlot ← parseTarget (Json.item fields "target_slot")
  let version ← (Json.item fields "version").asVersion
    (raise .deploymentError "invalid pending anchor version")
  let releaseSequence ← (Json.item fields "release_sequence").intWhere
    (fun i => 0 ≤ i && i ≤ maxReleaseSequence)
    (raise .deploymentError "invalid pending anchor release sequence")
  raiseIf (releaseSequence ≤ previousFloor)
    (raise .deploymentError "pending anchor commit does not advance rollback floor")
  return {
    previousGeneration := generation.toNat
    previousFloor := previousFloor
    targetSlot := targetSlot
    version := version
    releaseSequence := releaseSequence }

/-- The journals `_parse_pending_anchor` accepts. -/
structure WellFormed (p : PendingAnchor) : Prop where
  floor_ge : -1 ≤ p.previousFloor
  semver : semverMatch p.version = true
  sequence_nonneg : 0 ≤ p.releaseSequence
  sequence_le : p.releaseSequence ≤ maxReleaseSequence
  advances : p.previousFloor < p.releaseSequence

/-- An object with the fields of a well-formed journal, in any order, is read as the
journal. -/
theorem parsePendingAnchor_fields {p : PendingAnchor} (h : p.WellFormed)
    {items : List (PyStr × Json)} (hkeys : Json.keysAre items fieldNames = true)
    (hitems : ∀ k ∈ fieldNames, Json.item items k = Json.item p.fields k) :
    parsePendingAnchor (.obj items) = .ok p := by
  have htarget : parseTarget (.str p.targetSlot.name) = .ok p.targetSlot := by
    simp [parseTarget, Json.memberOf, ok_bind, pure, Except.pure]
  have hone : (Json.item p.fields "schema_version").pyEq (.int 1) = true := rfl
  simp only [fieldNames, List.forall_mem_cons] at hitems
  obtain ⟨hschema, hgeneration, hfloor, htargetSlot, hversion, hsequence, -⟩ := hitems
  simp only [parsePendingAnchor, bind_eq_ok, raiseIf_eq_ok, pure_eq_ok, Json.asObject_ok,
    Json.intWhere_ok, Json.asVersion_ok, Json.obj.injEq]
  exact ⟨_, rfl, (), by rw [hkeys, hschema, hone]; simp,
    _, ⟨hgeneration.trans rfl, by simp⟩, _, ⟨hfloor.trans rfl, by simp [h.floor_ge]⟩,
    _, htargetSlot.trans (rfl : _ = Json.str p.targetSlot.name) ▸ htarget,
    _, ⟨hversion.trans rfl, h.semver⟩,
    _, ⟨hsequence.trans rfl, by simp [h.sequence_nonneg, h.sequence_le]⟩,
    (), Int.not_le.mpr h.advances, by simp⟩

/-- A well-formed journal is read back as it was written. -/
theorem parsePendingAnchor_toDict {p : PendingAnchor} (h : p.WellFormed) :
    parsePendingAnchor p.toDict = .ok p :=
  parsePendingAnchor_fields h rfl fun _ _ => rfl

/-- Every journal the parser accepts is well-formed. -/
theorem parsePendingAnchor_ok {data : Json} {p : PendingAnchor}
    (h : parsePendingAnchor data = .ok p) : p.WellFormed := by
  simp only [parsePendingAnchor, bind_eq_ok, raiseIf_eq_ok, pure_eq_ok, Json.asObject_ok,
    Json.intWhere_ok, Json.asVersion_ok, Bool.and_eq_true, decide_eq_true_eq] at h
  obtain ⟨_, _, _, _, _, _, _, ⟨_, hfloor⟩, _, _, _, ⟨_, hversion⟩, _, ⟨_, hseq⟩, _, hadv,
    rfl⟩ := h
  exact ⟨hfloor, hversion, hseq.1, hseq.2, Int.not_le.mp hadv⟩

/-- What the writer's check reads from a journal's own fields is the journal. -/
theorem parsePendingAnchor_self {p q : PendingAnchor} (h : parsePendingAnchor p.toDict = .ok q) :
    q = p := by
  simp only [toDict, parsePendingAnchor, bind_eq_ok, raiseIf_eq_ok, pure_eq_ok, Json.asObject_ok,
    Json.intWhere_ok, Json.asVersion_ok, Json.obj.injEq] at h
  obtain ⟨_, rfl, _, _, generation, ⟨hgen, _⟩, floor, ⟨hfloor, _⟩, target, htarget, version,
    ⟨hversion, _⟩, sequence, ⟨hsequence, _⟩, _, _, rfl⟩ := h
  have hself : parseTarget (.str p.targetSlot.name) = .ok p.targetSlot := by
    simp [parseTarget, Json.memberOf, ok_bind, pure, Except.pure]
  have hgen := Json.int.inj hgen
  have hfloor := Json.int.inj hfloor
  have htarget := Except.ok.inj (hself.symm.trans htarget)
  have hversion := Json.str.inj hversion
  have hsequence := Json.int.inj hsequence
  cases p
  simp only at hgen hfloor htarget hversion hsequence
  simp [← hgen, ← hfloor, ← htarget, ← hversion, ← hsequence]

end PendingAnchor

end EdgeFort
