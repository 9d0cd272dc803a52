/-
The bytes of the state file and of the journal (`deploy.py`).

The writer checks the object and the reader the bytes parsed again, under a limit of its
own.  The state fits its limit whatever its error text is; a journal fits as long as its
version is no longer than a file name.
-/
import EdgeFort.Deploy.MethodRules
import EdgeFort.Json.Characters
import EdgeFort.Json.Size
import EdgeFort.Registry.VersionGrammar
import EdgeFort.Store.CanonicalJson

namespace EdgeFort
namespace Deploy

open Effect Json ABDeployer

variable (I : Interpreter)

def maxStateBytes : Nat := 64 * 1024
def maxPendingBytes : Nat := 16 * 1024

/-- What a read of at most one byte more than the limit and `strict_json_loads` make of a
file's bytes. -/
def docOf (limit : Nat) (file : Bytes) : Doc :=
  let raw := file.take (limit + 1)
  if limit < raw.length then .oversized
  else
    match (do
      let text ← utf8Decode raw
      strictJsonLoads I (.str text)) with
    | .ok value => .json value
    | .error e => .malformed e.text

/-- The bytes `_write` replaces `state.json` with. -/
def stateFile (st : DeploymentState) : Except PyError Bytes := do
  let _ ← DeploymentState.parseState st.toDict
  let text ← canonicalJsonBytes I st.toDict
  return text ++ [0x0A]

/-- The bytes `_write_pending_anchor` writes. -/
def journalFile (p : PendingAnchor) : Except PyError Bytes := do
  let _ ← PendingAnchor.parsePendingAnchor p.toDict
  let text ← canonicalJsonBytes I p.toDict
  return text ++ [0x0A]

/-- `_read_pending_anchor` of a regular file. -/
def readJournal (file : Bytes) : Except PyError PendingAnchor :=
  readDoc "pending anchor commit" PendingAnchor.parsePendingAnchor
    (.file (docOf I maxPendingBytes file))

variable {I} {limit : Nat} {v : Json} {text file : Bytes}

/-- A file of canonical text within the limit reads as the value in key order. -/
theorem docOf_canonical (hI : I.Lawful) (hv : v.strict = true) (hd : v.readDepth ≤ I.loadsNesting)
    (htext : canonicalJsonBytes I v = .ok text) (hlimit : text.length + 1 ≤ limit) :
    docOf I limit (text ++ [0x0A]) = .json v.sortKeys := by
  obtain ⟨-, hencode⟩ := dumpsBytes_eq_ok.mp htext
  have hfile := utf8Encode_append hencode (show utf8Encode [chr 0x0A] = .ok [0x0A] from rfl)
  have hlen : (text ++ [0x0A]).length ≤ limit := by simpa using hlimit
  have htake : (text ++ [0x0A]).take (limit + 1) = text ++ [0x0A] :=
    List.take_of_length_le (hlen.trans (Nat.le_succ _))
  simp only [docOf, htake, if_neg (Nat.not_lt.mpr hlen), utf8Decode_encode hfile, ok_bind,
    strictJsonLoads_canonicalJsonBytes hI hv hd htext hencode]

theorem docOf_oversized (h : limit < file.length) : docOf I limit file = .oversized := by
  have hlen : limit < (file.take (limit + 1)).length := by
    rw [List.length_take]
    omega
  rw [docOf, if_pos hlen]

/-- Canonical text has the length of what it prints. -/
theorem length_canonical (htext : canonicalJsonBytes I v = .ok text) :
    text.length = byteLength (render I false v.sortKeys) := by
  obtain ⟨-, hencode⟩ := dumpsBytes_eq_ok.mp htext
  rw [(utf8Encode_eq_ok.mp hencode).2]
  rfl

/-- An integer that is printed has few enough digits. -/
theorem length_printed {n : Nat} {i : Int} (h : (Json.int i).refusal n = none) :
    byteLength (intRepr i) ≤ 4301 := by
  have hle := byteLength_intRepr i
  cases n <;>
    simp only [Json.refusal, ite_eq_right_iff, reduceCtorEq, imp_false, not_lt] at h <;>
    exact hle.trans (Nat.succ_le_succ h)

theorem length_sequence {i : Int} (hge : -1 ≤ i) (hle : i ≤ maxReleaseSequence) :
    byteLength (intRepr i) ≤ 20 := by
  have hlt : i.natAbs < 10 ^ 19 := by
    unfold maxReleaseSequence at hle
    norm_num
    omega
  have := length_decimal (by decide) hlt
  have := byteLength_intRepr i
  omega

/-! ## The state -/

section State

variable {st : DeploymentState}

theorem sortKeys_errorJson (e : Option PyStr) :
    (DeploymentState.errorJson e).sortKeys = DeploymentState.errorJson e := by
  cases e <;> rfl

theorem sortKeys_slotJson (s : Option Slot) : (Slot.toJson s).sortKeys = Slot.toJson s := by
  cases s <;> rfl

theorem sortKeys_slots (slots : Slots) : slots.toJson.sortKeys = slots.toJson := by
  have hversion : ∀ x : Option PyStr, (Slots.versionJson x).sortKeys = Slots.versionJson x := by
    intro x
    cases x <;> rfl
  have hsorted : slots.toJson.sortKeys = .obj [(py "A", (Slots.versionJson slots.a).sortKeys),
      (py "B", (Slots.versionJson slots.b).sortKeys)] := rfl
  rw [hsorted, hversion, hversion]
  rfl

/-- The fields of the state in key order. -/
def sortedFields (st : DeploymentState) : List (PyStr × Json) :=
  [(py "active_slot", Slot.toJson st.activeSlot), (py "generation", .int st.generation),
    (py "highest_release_sequence", .int st.highestReleaseSequence),
    (py "last_error", DeploymentState.errorJson st.lastError),
    (py "previous_slot", Slot.toJson st.previousSlot), (py "slots", st.slots.toJson),
    (py "status", .str st.status.value)]

theorem sortKeys_toDict (st : DeploymentState) :
    st.toDict.sortKeys = .obj (sortedFields st) := by
  have hsorted : st.toDict.sortKeys = .obj
      [(py "active_slot", (Slot.toJson st.activeSlot).sortKeys),
        (py "generation", .int st.generation),
        (py "highest_release_sequence", .int st.highestReleaseSequence),
        (py "last_error", (DeploymentState.errorJson st.lastError).sortKeys),
        (py "previous_slot", (Slot.toJson st.previousSlot).sortKeys),
        (py "slots", st.slots.toJson.sortKeys), (py "status", .str st.status.value)] := rfl
  rw [hsorted, sortKeys_slotJson, sortKeys_slotJson, sortKeys_errorJson, sortKeys_slots]
  rfl

theorem strict_toDict (st : DeploymentState) : st.toDict.strict = true := by
  obtain ⟨generation, active, previous, ⟨a, b⟩, floor, status, error⟩ := st
  cases active <;> cases previous <;> cases a <;> cases b <;> cases error <;> rfl

theorem readDepth_toDict (I : Interpreter) (st : DeploymentState) :
    st.toDict.readDepth ≤ I.loadsNesting := by
  have hdepth : st.toDict.readDepth = 3 := by
    obtain ⟨generation, active, previous, ⟨a, b⟩, floor, status, error⟩ := st
    cases active <;> cases previous <;> cases a <;> cases b <;> cases error <;> rfl
  rw [hdepth]
  exact Nat.le_of_succ_le I.loadsNesting_ge

/-- The state in key order reads back. -/
theorem parseState_sortKeys (h : st.WellFormed) :
    DeploymentState.parseState st.toDict.sortKeys = .ok st := by
  rw [sortKeys_toDict]
  refine DeploymentState.parseState_fields h rfl ?_
  simp only [DeploymentState.fieldNames, List.forall_mem_cons, List.not_mem_nil, false_implies,
    implies_true, and_true]
  rw [DeploymentState.item_generation, DeploymentState.item_activeSlot,
    DeploymentState.item_previousSlot, DeploymentState.item_slots, DeploymentState.item_floor,
    DeploymentState.item_status, DeploymentState.item_lastError]
  exact ⟨rfl, rfl, rfl, rfl, rfl, rfl, rfl⟩

theorem length_versionJson {x : Option PyStr} (h : ∀ v, x = some v → byteLength v ≤ 255) :
    byteLength (render I false (Slots.versionJson x)) ≤ 1532 := by
  cases x with
  | none => exact (by decide : byteLength (py "null") ≤ 1532)
  | some v =>
    have hlen := length_le_byteLength v
    have := (byteLength_renderString v).2
    have := h v rfl
    simp only [Slots.versionJson, render]
    omega

theorem length_errorJson {x : Option PyStr}
    (h : ∀ t, x = some t → t.length ≤ DeploymentState.maxErrorChars) :
    byteLength (render I false (DeploymentState.errorJson x)) ≤ 24578 := by
  cases x with
  | none => exact (by decide : byteLength (py "null") ≤ 24578)
  | some t =>
    have := (byteLength_renderString t).2
    have := h t rfl
    simp only [DeploymentState.maxErrorChars] at this
    simp only [DeploymentState.errorJson, render]
    omega

theorem length_slotJson (s : Option Slot) : byteLength (render I false (Slot.toJson s)) ≤ 4 := by
  rcases s with _ | _ | _
  · exact (by decide : byteLength (py "null") ≤ 4)
  · exact (by decide : byteLength (renderString false (py "A")) ≤ 4)
  · exact (by decide : byteLength (renderString false (py "B")) ≤ 4)

theorem length_status (s : DeploymentStatus) : byteLength (renderString false s.value) ≤ 13 := by
  cases s <;> decide

/-- The text of a state fits the limit for reading. -/
theorem length_state (h : st.WellFormed)
    (hversions : ∀ s v, st.slots.get s = some v → byteLength v ≤ 255)
    (htext : canonicalJsonBytes I st.toDict = .ok text) : text.length + 1 ≤ maxStateBytes := by
  obtain ⟨hrefusal, -⟩ := dumpsBytes_eq_ok.mp htext
  rw [length_canonical htext]
  rw [sortKeys_toDict] at hrefusal ⊢
  have hgeneration : byteLength (intRepr st.generation) ≤ 4301 := by
    obtain ⟨n, hitems⟩ := refusal_items hrefusal
    exact length_printed (hitems (py "generation", .int st.generation) (by simp [sortedFields]))
  have hfloor := length_sequence h.floor_ge h.floor_le
  have herror := length_errorJson (I := I) h.error_le
  have hactive := length_slotJson (I := I) st.activeSlot
  have hprevious := length_slotJson (I := I) st.previousSlot
  have hstatus := length_status st.status
  have ha := length_versionJson (I := I) (hversions .A)
  have hb := length_versionJson (I := I) (hversions .B)
  have hslots : byteLength (render I false st.slots.toJson) ≤ 3080 := by
    have hkey : byteLength (renderString false (py "A")) = 3 := by decide
    have hkey' : byteLength (renderString false (py "B")) = 3 := by decide
    rw [Slots.toJson, byteLength_render_obj]
    simp only [itemsLength, List.map_cons, List.map_nil, List.sum_cons, List.sum_nil, hkey, hkey']
    have ha : byteLength (render I false (Slots.versionJson st.slots.a)) ≤ 1532 := ha
    have hb : byteLength (render I false (Slots.versionJson st.slots.b)) ≤ 1532 := hb
    omega
  have hkeys :
      (DeploymentState.fieldNames.map fun k => byteLength (renderString false k)).sum = 93 := by
    decide
  simp only [DeploymentState.fieldNames, List.map_cons, List.map_nil, List.sum_cons,
    List.sum_nil] at hkeys
  rw [sortedFields, byteLength_render_obj]
  simp only [itemsLength, List.map_cons, List.map_nil, List.sum_cons, List.sum_nil, render,
    maxStateBytes] at *
  omega

end State

/-! ## The journal -/

section Journal

variable {p : PendingAnchor}

/-- The fields of the journal in key order. -/
def sortedJournal (p : PendingAnchor) : List (PyStr × Json) :=
  [(py "previous_floor", .int p.previousFloor),
    (py "previous_generation", .int p.previousGeneration),
    (py "release_sequence", .int p.releaseSequence), (py "schema_version", .int 1),
    (py "target_slot", .str p.targetSlot.name), (py "version", .str p.version)]

theorem sortKeys_journal (p : PendingAnchor) : p.toDict.sortKeys = .obj (sortedJournal p) := rfl

theorem strict_journal (p : PendingAnchor) : p.toDict.strict = true := rfl

/-- The journal in key order reads back. -/
theorem parsePendingAnchor_sortKeys (h : p.WellFormed) :
    PendingAnchor.parsePendingAnchor p.toDict.sortKeys = .ok p := by
  rw [sortKeys_journal]
  refine PendingAnchor.parsePendingAnchor_fields h rfl ?_
  simp only [PendingAnchor.fieldNames, List.forall_mem_cons, List.not_mem_nil, false_implies,
    implies_true, and_true]
  exact ⟨Eq.trans (b := .int 1) rfl rfl, Eq.trans (b := .int p.previousGeneration) rfl rfl,
    Eq.trans (b := .int p.previousFloor) rfl rfl, Eq.trans (b := .str p.targetSlot.name) rfl rfl,
    Eq.trans (b := .str p.version) rfl rfl, Eq.trans (b := .int p.releaseSequence) rfl rfl⟩

/-- The text of a journal fits the limit for reading, if its version is a file name. -/
theorem length_journal (h : p.WellFormed) (hversion : byteLength p.version ≤ 255)
    (htext : canonicalJsonBytes I p.toDict = .ok text) : text.length + 1 ≤ maxPendingBytes := by
  obtain ⟨hrefusal, -⟩ := dumpsBytes_eq_ok.mp htext
  rw [length_canonical htext]
  rw [sortKeys_journal] at hrefusal ⊢
  have hgeneration : byteLength (intRepr p.previousGeneration) ≤ 4301 := by
    obtain ⟨n, hitems⟩ := refusal_items hrefusal
    exact length_printed
      (hitems (py "previous_generation", .int p.previousGeneration) (by simp [sortedJournal]))
  have hfloor := length_sequence h.floor_ge (h.advances.le.trans h.sequence_le)
  have hsequence := length_sequence (by have := h.sequence_nonneg; omega) h.sequence_le
  have hone : byteLength (intRepr 1) = 1 := by decide
  have hslot : byteLength (renderString false p.targetSlot.name) = 3 := by
    cases p.targetSlot <;> decide
  have htext := (byteLength_renderString p.version).2
  have hchars := length_le_byteLength p.version
  have hkeys :
      (PendingAnchor.fieldNames.map fun k => byteLength (renderString false k)).sum = 93 := by
    decide
  simp only [PendingAnchor.fieldNames, List.map_cons, List.map_nil, List.sum_cons,
    List.sum_nil] at hkeys
  rw [sortedJournal, byteLength_render_obj]
  simp only [itemsLength, List.map_cons, List.map_nil, List.sum_cons, List.sum_nil, render,
    maxPendingBytes] at *
  omega

/-- A journal is longer than its version. -/
theorem version_le_length (htext : canonicalJsonBytes I p.toDict = .ok text) :
    p.version.length ≤ text.length := by
  have hversion := (byteLength_renderString p.version).1
  rw [length_canonical htext, sortKeys_journal, sortedJournal, byteLength_render_obj]
  simp only [itemsLength, List.map_cons, List.map_nil, List.sum_cons, List.sum_nil, render]
  omega

end Journal

/-! ## Round trips -/

theorem stateFile_ok {st : DeploymentState} (hfile : stateFile I st = .ok file) :
    st.WellFormed ∧ ∃ text, canonicalJsonBytes I st.toDict = .ok text ∧ file = text ++ [0x0A] := by
  simp only [stateFile, bind_eq_ok, pure_eq_ok] at hfile
  obtain ⟨st', hparse, text, htext, rfl⟩ := hfile
  obtain rfl := DeploymentState.parseState_self hparse
  exact ⟨DeploymentState.parseState_ok hparse, text, htext, rfl⟩

theorem journalFile_ok {p : PendingAnchor} (hfile : journalFile I p = .ok file) :
    p.WellFormed ∧ ∃ text, canonicalJsonBytes I p.toDict = .ok text ∧ file = text ++ [0x0A] := by
  simp only [journalFile, bind_eq_ok, pure_eq_ok] at hfile
  obtain ⟨p', hparse, text, htext, rfl⟩ := hfile
  obtain rfl := PendingAnchor.parsePendingAnchor_self hparse
  exact ⟨PendingAnchor.parsePendingAnchor_ok hparse, text, htext, rfl⟩

/-- `_read` of a file that parses as a state. -/
theorem run_read {D : ABDeployer} {w : World} {st : DeploymentState} {doc : Doc}
    (hnode : w.node .state = .file doc)
    (hread : readDoc "deployment state" DeploymentState.parseState (.file doc) = .ok st) :
    sem.run (D.read false) w = (.ok st, w) := by
  have hlook : sem.run (look .state) w = (.ok (.file doc), w) := by
    rw [look, perform, Sem.run_perform]
    simp only [sem, exec, hnode]
  rw [ABDeployer.read, Sem.run_bind_ok hlook]
  simp only [hread]
  rw [Sem.run_bind_ok (Sem.run_liftM _ _ _)]
  rfl

/-- `_read_pending_anchor` of a file that parses as a journal. -/
theorem run_readPendingAnchor {w : World} {p : PendingAnchor} {doc : Doc}
    (hnode : w.node .pending = .file doc)
    (hread : readDoc "pending anchor commit" PendingAnchor.parsePendingAnchor (.file doc) = .ok p) :
    sem.run readPendingAnchor w = (.ok (some p), w) := by
  have hlook : sem.run (look .pending) w = (.ok (.file doc), w) := by
    rw [look, perform, Sem.run_perform]
    simp only [sem, exec, hnode]
  rw [readPendingAnchor, Sem.run_bind_ok hlook]
  simp only [hread]
  rw [Sem.run_bind_ok (Sem.run_liftM _ _ _)]
  rfl

/-- What is written is within the limit for reading and reads back, for versions no longer
than a file name, and what is read is consistent. -/
structure RoundTrips (I : Interpreter) : Prop where
  state : ∀ (D : ABDeployer) (w : World) (st : DeploymentState) (file : Bytes),
    stateFile I st = .ok file → (∀ s v, st.slots.get s = some v → byteLength v ≤ 255) →
      w.node .state = .file (docOf I maxStateBytes file) →
        file.length ≤ maxStateBytes ∧ sem.run (D.read false) w = (.ok st, w)
  journal : ∀ (w : World) (p : PendingAnchor) (file : Bytes),
    journalFile I p = .ok file → byteLength p.version ≤ 255 →
      w.node .pending = .file (docOf I maxPendingBytes file) →
        file.length ≤ maxPendingBytes ∧ sem.run readPendingAnchor w = (.ok (some p), w)
  state_consistent : ∀ data st, DeploymentState.parseState data = .ok st → st.WellFormed
  journal_consistent : ∀ data p, PendingAnchor.parsePendingAnchor data = .ok p → p.WellFormed

theorem persistence_round_trips (I : Interpreter) (hI : I.Lawful) : RoundTrips I where
  state D w st file hfile hversions hnode := by
    obtain ⟨hwf, text, htext, rfl⟩ := stateFile_ok hfile
    have hlen := length_state hwf hversions htext
    rw [docOf_canonical hI (strict_toDict st) (readDepth_toDict I st) htext hlen] at hnode
    exact ⟨by simpa using hlen, run_read hnode (readDoc_json (parseState_sortKeys hwf))⟩
  journal w p file hfile hversion hnode := by
    obtain ⟨hwf, text, htext, rfl⟩ := journalFile_ok hfile
    have hlen := length_journal hwf hversion htext
    rw [docOf_canonical hI (strict_journal p) (readDepth_flat I rfl) htext hlen] at hnode
    exact ⟨by simpa using hlen,
      run_readPendingAnchor hnode (readDoc_json (parsePendingAnchor_sortKeys hwf))⟩
  state_consistent _ _ := DeploymentState.parseState_ok
  journal_consistent _ _ := PendingAnchor.parsePendingAnchor_ok

theorem persistence_round_trips_sample : RoundTrips EdgeFort.Sample.interpreter :=
  persistence_round_trips EdgeFort.Sample.interpreter EdgeFort.Sample.interpreter_lawful

/-! ## A journal that does not fit -/

namespace Sample

/-- A version with a label of so many letters. -/
def labelled (n : Nat) : PyStr := py "1.0.0-" ++ List.replicate n (chr 0x61)

theorem labelled_semver {n : Nat} (hn : n ≠ 0) : semverMatch (labelled n) = true := by
  have hlabel : ∀ d ∈ List.replicate n (chr 0x61), isSuffixChar d = true := by
    intro d hd
    rw [List.eq_of_mem_replicate hd]
    decide
  have hversion : Version.IsVersion (labelled n) :=
    ⟨[chr 0x31], [chr 0x30], [chr 0x30], chr 0x2D :: List.replicate n (chr 0x61),
      .positive (by decide) (by decide) nofun, .zero, .zero,
      .label (Or.inl rfl) (by simpa using hn) hlabel, by simp [labelled, Version.dot]; rfl⟩
  exact hversion.semverMatch

def longJournal : PendingAnchor where
  previousGeneration := 0
  previousFloor := -1
  targetSlot := .A
  version := labelled 17000
  releaseSequence := 1

theorem longJournal_wellFormed : longJournal.WellFormed where
  floor_ge := by decide
  semver := labelled_semver (by decide)
  sequence_nonneg := by decide
  sequence_le := by decide
  advances := by decide

end Sample

/-- A journal with a long version is written and is refused when it is read. -/
theorem long_journal_refused : ∃ file,
    journalFile EdgeFort.Sample.interpreter Sample.longJournal = .ok file ∧
      readJournal EdgeFort.Sample.interpreter file =
        .error (raise .deploymentError "pending anchor commit exceeds size limit") := by
  obtain ⟨text, htext⟩ : ∃ text,
      canonicalJsonBytes EdgeFort.Sample.interpreter Sample.longJournal.toDict = .ok text := by
    refine exists_dumpsBytes ?_ rfl
    simp only [PendingAnchor.toDict, PendingAnchor.fields, encodable, encodableFields,
      semverMatch_utf8 Sample.longJournal_wellFormed.semver]
    rfl
  refine ⟨text ++ [0x0A], ?_, ?_⟩
  · simp only [journalFile,
      PendingAnchor.parsePendingAnchor_toDict Sample.longJournal_wellFormed, ok_bind, htext]
    rfl
  · have hlong : maxPendingBytes < (text ++ [0x0A]).length := by
      have hversion := version_le_length htext
      have hlen : Sample.longJournal.version.length = 17006 := by
        simp only [Sample.longJournal, Sample.labelled, List.length_append,
          List.length_replicate]
        rfl
      rw [hlen] at hversion
      rw [List.length_append]
      simp only [maxPendingBytes, List.length_singleton]
      omega
    rw [readJournal, docOf_oversized hlong]
    rfl

end Deploy
end EdgeFort
