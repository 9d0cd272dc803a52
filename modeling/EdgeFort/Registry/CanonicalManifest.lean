/-
A manifest and its canonical text.

The signed bytes of a manifest are the canonical text of its fields.  They read
back as the manifest itself, its metadata in key order, and no two manifests of
different content have the same ones.
-/
import EdgeFort.Json.Nesting
import EdgeFort.Registry.Signing

namespace EdgeFort

open Effect Manifest

/-! ## The fields of a sorted object -/

def MetricsRecord.sortKeys (m : MetricsRecord) : MetricsRecord :=
  ⟨m.accuracy.sortKeys, m.ece.sortKeys, m.p95LatencyMs.sortKeys, m.maxRssMb.sortKeys⟩

def ManifestHeader.sortKeys (m : ManifestHeader) : ManifestHeader where
  schemaVersion := m.schemaVersion.sortKeys
  releaseSequence := m.releaseSequence.sortKeys
  version := m.version.sortKeys
  modelKind := m.modelKind.sortKeys
  runtimeAbi := m.runtimeAbi.sortKeys
  modelSha256 := m.modelSha256.sortKeys
  modelBytes := m.modelBytes.sortKeys
  metrics := m.metrics.sortKeys
  createdUtc := m.createdUtc.sortKeys

def ManifestRecord.sortKeys (m : ManifestRecord) : ManifestRecord :=
  { m.toManifestHeader.sortKeys with metadata := m.metadata.sortKeys }

namespace Manifest

theorem metricsRecord_sortKeys {v : Json} (hv : v.strict = true) {r : MetricsRecord}
    (h : metricsRecord v = .ok r) : metricsRecord v.sortKeys = .ok r.sortKeys := by
  cases v with
  | obj ms =>
    simp only [Json.strict, Bool.and_eq_true, decide_eq_true_eq] at hv
    simp only [metricsRecord] at h
    split_ifs at h with hkeys
    rw [← Except.ok.inj h, Json.sortKeys, metricsRecord, if_pos (Json.keysAre_sorted hv.1 hkeys)]
    simp only [Json.item_sorted hv.1, MetricsRecord.sortKeys]
  | _ => cases h

/-- A sorted object has the fields of the object, each sorted. -/
theorem recordFromDict_sortKeys {data : Json} (hd : data.strict = true) {r : ManifestRecord}
    (h : recordFromDict data = .ok r) : recordFromDict data.sortKeys = .ok r.sortKeys := by
  cases data with
  | obj fields =>
    have hstrict := hd
    simp only [Json.strict, Bool.and_eq_true, decide_eq_true_eq] at hd
    simp only [recordFromDict, bind_eq_ok, raiseIf_eq_ok, Bool.not_eq_false, pure_eq_ok] at h
    obtain ⟨_, hkeys, metrics, hmetrics, rfl⟩ := h
    have hkeys := Json.keysAre_sorted hd.1 hkeys
    have hmetrics := metricsRecord_sortKeys (Json.item_strict hstrict _) hmetrics
    simp only [Json.sortKeys, recordFromDict, bind_eq_ok, raiseIf_eq_ok, hkeys,
      Json.item_sorted hd.1, hmetrics, pure_eq_ok]
    exact ⟨(), by simp, _, rfl, rfl⟩
  | _ => cases h

theorem recordFromDict_toDict (r : ManifestRecord) : recordFromDict r.toDict = .ok r := by
  obtain ⟨⟨_, _, _, _, _, _, _, ⟨_, _, _, _⟩, _⟩, _⟩ := r
  rfl

end Manifest

/-! ## The fields in the order they are written -/

def MetricsRecord.inOrder (m : MetricsRecord) : Json :=
  .obj [("accuracy", m.accuracy), ("ece", m.ece), ("max_rss_mb", m.maxRssMb),
    ("p95_latency_ms", m.p95LatencyMs)]

def ManifestRecord.inOrder (m : ManifestRecord) : Json :=
  .obj [("created_utc", m.createdUtc), ("metadata", m.metadata),
    ("metrics", m.metrics.inOrder), ("model_bytes", m.modelBytes), ("model_kind", m.modelKind),
    ("model_sha256", m.modelSha256), ("release_sequence", m.releaseSequence),
    ("runtime_abi", m.runtimeAbi), ("schema_version", m.schemaVersion), ("version", m.version)]

theorem recordFromDict_inOrder (r : ManifestRecord) : recordFromDict r.inOrder = .ok r := by
  obtain ⟨⟨_, _, _, _, _, _, _, ⟨_, _, _, _⟩, _⟩, _⟩ := r
  rfl

theorem ManifestRecord.toDict_sortKeys (m : ManifestRecord) :
    m.toDict.sortKeys = m.sortKeys.inOrder := rfl

/-! ## The text of a checked manifest -/

namespace ArtifactManifest

variable {P : Platform} (m : ArtifactManifest)

theorem metrics_strict : m.header.metrics.accuracy.strict = true ∧
    m.header.metrics.ece.strict = true ∧ m.header.metrics.p95LatencyMs.strict = true ∧
    m.header.metrics.maxRssMb.strict = true := by
  have hvalid := m.metrics_valid
  simp only [ModelMetrics.validate, bind_eq_ok] at hvalid
  obtain ⟨b, hfin, _, hb, _⟩ := hvalid
  have hb : b = true := by simpa using hb
  have hne : ∀ x ∈ [m.metrics.accuracy, m.metrics.ece, m.metrics.p95LatencyMs,
      m.metrics.maxRssMb], x.toJson.strict = true := by
    intro x hx
    have hx := ModelMetrics.allFinite_ne_nan (hb ▸ hfin) x hx
    cases x with
    | int i => rfl
    | float f =>
      have hf : f ≠ .nan := fun e => hx (congrArg _ e)
      simp [PyNum.toJson, Json.strict, hf]
  simpa [header] using hne

theorem toDict_strict : m.toDict.strict = true := by
  obtain ⟨ha, he, hp, hm⟩ := m.metrics_strict
  have hmetrics : m.header.metrics.toDict.strict = true := by
    simp only [MetricsRecord.toDict, Json.strict, Json.strictFields, ha, he, hp, hm,
      List.map_cons, List.map_nil]
    decide
  simp only [toDict, ManifestRecord.toDict, record, Json.strict, Json.strictFields, hmetrics,
    List.map_cons, List.map_nil]
  simp only [header, Json.strict, m.metadata_strict]
  decide

theorem inOrder_strict : m.record.inOrder.strict = true := by
  obtain ⟨ha, he, hp, hm⟩ := m.metrics_strict
  have hmetrics : m.header.metrics.inOrder.strict = true := by
    simp only [MetricsRecord.inOrder, Json.strict, Json.strictFields, ha, he, hp, hm,
      List.map_cons, List.map_nil]
    decide
  simp only [ManifestRecord.inOrder, record, Json.strict, Json.strictFields, hmetrics,
    List.map_cons, List.map_nil]
  simp only [header, Json.strict, m.metadata_strict]
  decide

theorem header_sortKeys : m.header.sortKeys = m.header := by
  have hnum : ∀ x : PyNum, x.toJson.sortKeys = x.toJson := fun x => by cases x <;> rfl
  simp only [header, ManifestHeader.sortKeys, MetricsRecord.sortKeys, hnum, Json.sortKeys]

variable {m}

theorem toJson_injective {x y : PyNum} (h : x.toJson = y.toJson) : x = y := by
  cases x <;> cases y <;> simp_all [PyNum.toJson]

theorem record_injective {a b : ArtifactManifest} (h : a.record = b.record) : a = b := by
  obtain ⟨_, _, _, _, _, _, _, ⟨_, _, _, _⟩, _, _⟩ := a
  obtain ⟨_, _, _, _, _, _, _, ⟨_, _, _, _⟩, _, _⟩ := b
  simp only [record, header, ManifestRecord.mk.injEq, ManifestHeader.mk.injEq,
    MetricsRecord.mk.injEq, Json.int.injEq, Json.str.injEq] at h
  obtain ⟨⟨rfl, rfl, rfl, rfl, rfl, rfl, rfl, ⟨h₁, h₂, h₃, h₄⟩, rfl⟩, rfl⟩ := h
  obtain rfl := toJson_injective h₁
  obtain rfl := toJson_injective h₂
  obtain rfl := toJson_injective h₃
  obtain rfl := toJson_injective h₄
  rfl

/-- The text of a manifest whose metadata is written as it stands. -/
structure HasText (P : Platform) (m : ArtifactManifest) (message : Bytes) : Prop where
  refusal : m.record.inOrder.refusal P.interpreter.dumpsNesting = none
  encodable : m.record.inOrder.encodable = true
  text : utf8Encode (Json.render P.interpreter false m.record.inOrder) = .ok message

end ArtifactManifest

theorem sortItems_dict (o : ManifestObject) {items : List (PyKey × PyObject)}
    (h : o.dict = .dict items) : PyObject.sortItems items =
      .ok ((.str (py "created_utc"), o.createdUtc.toObject) :: (.str (py "metadata"), o.metadata) ::
        Json.fieldsToObject [("metrics", o.metrics.toDict), ("model_bytes", o.modelBytes),
          ("model_kind", o.modelKind), ("model_sha256", o.modelSha256),
          ("release_sequence", o.releaseSequence), ("runtime_abi", o.runtimeAbi),
          ("schema_version", o.schemaVersion), ("version", o.version)]) := by
  obtain rfl := PyObject.dict.inj h
  rfl

namespace ManifestObject

variable {P : Platform} {o : ManifestObject} {m : ArtifactManifest} {message : Bytes}

/-- What is written of a manifest object. -/
theorem written_dict {I : Interpreter} {n : Nat} {W : Json} (h : o.dict.written I n = .ok W) :
    ∃ k w, n = k + 1 ∧ o.metadata.written I k = .ok w ∧
      W = ({ o.toManifestHeader.sortKeys with metadata := w } : ManifestRecord).inOrder := by
  obtain ⟨k, sorted, fields, rfl, rfl, -, hsorted, hfields⟩ := PyObject.written_dict h
  obtain rfl := Except.ok.inj (hsorted.symm.trans (sortItems_dict o rfl))
  obtain ⟨f, _, hf, htail, rfl⟩ := List.forall₂_cons_left_iff.mp hfields
  obtain ⟨⟨key, w⟩, rest, ⟨hkey, hw⟩, hrest, rfl⟩ := List.forall₂_cons_left_iff.mp htail
  obtain rfl := Except.ok.inj hkey
  obtain rfl := PyObject.fields_of_read hrest
  obtain ⟨name, value⟩ := f
  obtain rfl := Except.ok.inj hf.1
  obtain rfl := PyObject.written_toObject_ok hf.2
  exact ⟨k, w, rfl, hw, rfl⟩

theorem toDict_ok {d : PyObject} :
    o.toDict P = .ok d ↔ max 4 o.metadata.copyDepth ≤ P.asdictNesting ∧ d = o.dict := by
  unfold toDict
  split_ifs with h
  · simp [Nat.not_le.mpr h]
  · simp [Nat.le_of_not_lt h, eq_comm]

/-- What is signed of an object is its checked manifest's fields in order. -/
theorem written_inOrder (hv : o.validate P = .ok m) (hb : o.canonicalBytes P = .ok message) :
    o.dict.written P.interpreter P.interpreter.dumpsNesting = .ok m.record.inOrder := by
  simp only [canonicalBytes, bind_eq_ok, toDict_ok] at hb
  obtain ⟨_, ⟨-, rfl⟩, hb⟩ := hb
  obtain ⟨W, hW, -⟩ := PyObject.canonicalBytes_eq_ok.mp hb
  obtain ⟨hheader, -, -, hmetadata, -⟩ := validate_ok.mp hv
  obtain ⟨k, w, hk, hw, rfl⟩ := written_dict hW
  obtain rfl : w = m.metadata :=
    Except.ok.inj ((PyObject.written_mono hw (by omega)).symm.trans hmetadata)
  rw [hheader, m.header_sortKeys] at hW
  exact hW

theorem hasText (hv : o.validate P = .ok m) (hb : o.canonicalBytes P = .ok message) :
    max 4 o.metadata.copyDepth ≤ P.asdictNesting ∧ m.HasText P message := by
  have hwritten := written_inOrder hv hb
  simp only [canonicalBytes, bind_eq_ok, toDict_ok] at hb
  obtain ⟨_, ⟨hcopy, rfl⟩, hb⟩ := hb
  obtain ⟨W, hW, hencodable, htext⟩ := PyObject.canonicalBytes_eq_ok.mp hb
  obtain rfl := Except.ok.inj (hW.symm.trans hwritten)
  exact ⟨hcopy, PyObject.refusal_written hW, hencodable, htext⟩

end ManifestObject

/-! ## A checked manifest reads back -/

namespace ArtifactManifest

variable {P : Platform} {m : ArtifactManifest} {message : Bytes}

theorem manifestFromDict_inOrder : manifestFromDict P m.record.inOrder =
    validateManifest P m.record := by
  rw [manifestFromDict, recordFromDict_inOrder]

theorem HasText.text_eq (h : m.HasText P message) {text : PyStr}
    (htext : utf8Encode text = .ok message) :
    text = Json.render P.interpreter false m.record.inOrder :=
  Except.ok.inj ((utf8Decode_encode htext).symm.trans (utf8Decode_encode h.text))

/-- The text, with white space after it, reads as the fields in order. -/
theorem HasText.loads (hP : P.interpreter.Lawful) (h : m.HasText P message)
    (hdepth : m.record.inOrder.readDepth ≤ P.interpreter.loadsNesting) {text tail : PyStr}
    (htext : utf8Encode text = .ok message) (htail : Json.skipSpace tail = []) :
    strictJsonLoads P.interpreter (.str (text ++ tail)) = .ok m.record.inOrder := by
  rw [h.text_eq htext]
  exact Json.loads_render hP m.inOrder_strict h.encodable h.refusal hdepth htail

/-- A manifest file of the text and a newline reads as the record of the manifest. -/
theorem HasText.manifestFromBytes (hP : P.interpreter.Lawful) (h : m.HasText P message)
    (hdepth : m.record.inOrder.readDepth ≤ P.interpreter.loadsNesting) {K : TrustedKeyring} :
    (P.trust K).manifestFromBytes (message ++ [0x0A]) = validateManifest P m.record := by
  have hfile := utf8Encode_append h.text (show utf8Encode [chr 0x0A] = .ok [0x0A] from rfl)
  have hloads := h.loads hP hdepth h.text (show Json.skipSpace [chr 0x0A] = [] from rfl)
  simp only [Platform.trust, utf8Decode_encode hfile, ok_bind, hloads, manifestFromDict_inOrder]

/-- A manifest file that is too deep is refused. -/
theorem HasText.manifestFromBytes_overflows (hP : P.interpreter.Lawful) (h : m.HasText P message)
    (hdepth : P.interpreter.loadsNesting < m.record.inOrder.readDepth) {K : TrustedKeyring} :
    Json.Recurses ((P.trust K).manifestFromBytes (message ++ [0x0A])) := by
  have hfile := utf8Encode_append h.text (show utf8Encode [chr 0x0A] = .ok [0x0A] from rfl)
  have hloads : Json.Recurses (strictJsonLoads P.interpreter
      (.str (Json.render P.interpreter false m.record.inOrder ++ [chr 0x0A]))) :=
    Json.loads_overflows hP m.inOrder_strict h.encodable h.refusal hdepth rfl
  simp only [Platform.trust, utf8Decode_encode hfile, ok_bind]
  exact hloads.bind _

/-- A manifest file reads as no other manifest than the one it was written for. -/
theorem HasText.manifest_unique (hP : P.interpreter.Lawful) (h : m.HasText P message)
    {K : TrustedKeyring} {m' : ArtifactManifest}
    (hread : (P.trust K).manifestFromBytes (message ++ [0x0A]) = .ok m') : m' = m := by
  rcases le_or_gt m.record.inOrder.readDepth P.interpreter.loadsNesting with hdepth | hdepth
  · rw [h.manifestFromBytes hP hdepth] at hread
    exact (record_injective (validateManifest_ok.mp hread).1).symm
  · obtain ⟨e, he, -⟩ := h.manifestFromBytes_overflows hP hdepth (K := K)
    cases he.symm.trans hread

/-! ## Metadata whose keys are in order -/

theorem toDict_sortKeys_of_sorted (hsorted : m.metadata.sortKeys = m.metadata) :
    m.toDict.sortKeys = m.record.inOrder := by
  rw [toDict, ManifestRecord.toDict_sortKeys, ManifestRecord.sortKeys]
  simp only [record, header_sortKeys, hsorted]

theorem hasText_iff (hsorted : m.metadata.sortKeys = m.metadata) :
    m.HasText P message ↔ canonicalJsonBytes P.interpreter m.toDict = .ok message := by
  rw [canonicalJsonBytes, Json.dumpsBytes_eq_ok, toDict_sortKeys_of_sorted hsorted]
  constructor
  · exact fun h => ⟨h.refusal, h.text⟩
  · rintro ⟨hrefusal, htext⟩
    have hrender := (utf8Encode_eq_ok.mp htext).1
    exact ⟨hrefusal, Json.encodable_of_render _ _ hrefusal hrender, htext⟩

theorem object_canonicalBytes : m.object.canonicalBytes P = .ok message ↔
    max 4 m.metadata.toObject.copyDepth ≤ P.asdictNesting ∧
      canonicalJsonBytes P.interpreter m.toDict = .ok message := by
  have hdict : m.object.dict = m.toDict.toObject := rfl
  simp only [ManifestObject.canonicalBytes, bind_eq_ok, ManifestObject.toDict_ok]
  constructor
  · rintro ⟨_, ⟨hcopy, rfl⟩, hb⟩
    rw [hdict, PyObject.canonicalBytes_toObject] at hb
    exact ⟨hcopy, hb⟩
  · rintro ⟨hcopy, hb⟩
    refine ⟨_, ⟨hcopy, rfl⟩, ?_⟩
    rw [hdict, PyObject.canonicalBytes_toObject]
    exact hb

/-- A manifest that was read passes the checks of an object. -/
theorem Checked.object_validate (hm : m.Checked P)
    (hsorted : m.metadata.sortKeys = m.metadata) : m.object.validate P = .ok m := by
  obtain ⟨encoded, hb, hlen⟩ := hm.metadata_bytes
  have hbytes : m.metadata.toObject.canonicalBytes P.interpreter = .ok encoded := by
    rw [PyObject.canonicalBytes_toObject]
    exact hb
  obtain ⟨w, hw, -⟩ := PyObject.canonicalBytes_eq_ok.mp hbytes
  have hwritten := PyObject.written_toObject_ok hw
  rw [hsorted] at hwritten
  refine ManifestObject.validate_ok.mpr ⟨rfl, hm.toCheckedHeader, ?_, hwritten ▸ hw, encoded,
    hbytes, hlen⟩
  have hobject := hm.metadata_object
  show isDict m.metadata.toObject = true
  cases hv : m.metadata with
  | obj fields => rfl
  | _ => rw [hv] at hobject; cases hobject

end ArtifactManifest

/-- An object whose metadata has its keys in order is checked as it reads back. -/
theorem ManifestObject.checked {P : Platform} {o : ManifestObject} {m : ArtifactManifest}
    (hv : o.validate P = .ok m) (hsorted : m.metadata.sortKeys = m.metadata) : m.Checked P := by
  obtain ⟨-, hm, hdict, hmetadata, encoded, hb, hlen⟩ := validate_ok.mp hv
  refine ⟨hm, ?_, encoded, ?_, hlen⟩
  · cases ho : o.metadata with
    | dict items =>
      rw [ho] at hmetadata
      obtain ⟨_, _, fields, -, hfields, -⟩ := PyObject.written_dict hmetadata
      rw [hfields]
      rfl
    | _ => rw [ho] at hdict; cases hdict
  · obtain ⟨w, hw, -, htext⟩ := PyObject.canonicalBytes_eq_ok.mp hb
    obtain rfl := Except.ok.inj (hw.symm.trans hmetadata)
    rw [canonicalJsonBytes, Json.dumpsBytes_eq_ok, hsorted]
    exact ⟨PyObject.refusal_written hw, htext⟩

/-! ## Canonical text identifies a manifest -/

namespace ArtifactManifest

/-- Equality of two manifests field by field, with exact JSON types. -/
structure Same (a b : ArtifactManifest) : Prop where
  schemaVersion : a.schemaVersion = b.schemaVersion
  releaseSequence : a.releaseSequence = b.releaseSequence
  version : a.version = b.version
  modelKind : a.modelKind = b.modelKind
  runtimeAbi : a.runtimeAbi = b.runtimeAbi
  modelSha256 : a.modelSha256 = b.modelSha256
  modelBytes : a.modelBytes = b.modelBytes
  metrics : a.metrics = b.metrics
  createdUtc : a.createdUtc = b.createdUtc
  metadata : a.metadata.same b.metadata = true

theorem toJson_same {x y : PyNum} (h : x.toJson.same y.toJson = true) : x = y := by
  cases x <;> cases y <;> simp_all [PyNum.toJson, Json.same]

theorem int_same {i j : Int} (h : (Json.int i).same (.int j) = true) : i = j := by
  simpa [Json.same] using h

theorem str_same {s t : PyStr} (h : (Json.str s).same (.str t) = true) : s = t := by
  simpa [Json.same] using h

theorem metrics_same {a b : ArtifactManifest}
    (h : a.record.metrics.toDict.same b.record.metrics.toDict = true) : a.metrics = b.metrics := by
  simp only [MetricsRecord.toDict, Json.same, Bool.and_eq_true, Json.sameFields_cons] at h
  obtain ⟨-, ⟨x₁, l₁, h₁⟩, ⟨x₂, l₂, h₂⟩, ⟨x₃, l₃, h₃⟩, ⟨x₄, l₄, h₄⟩, -⟩ := h
  have e₁ : b.metrics.accuracy.toJson = x₁ := Option.some.inj l₁
  have e₂ : b.metrics.ece.toJson = x₂ := Option.some.inj l₂
  have e₃ : b.metrics.p95LatencyMs.toJson = x₃ := Option.some.inj l₃
  have e₄ : b.metrics.maxRssMb.toJson = x₄ := Option.some.inj l₄
  subst e₁ e₂ e₃ e₄
  cases ha : a.metrics
  cases hb : b.metrics
  simp only [record, header, ha, hb] at h₁ h₂ h₃ h₄
  rw [toJson_same h₁, toJson_same h₂, toJson_same h₃, toJson_same h₄]

theorem same_of_toDict {a b : ArtifactManifest} (h : a.toDict.same b.toDict = true) :
    a.Same b := by
  simp only [toDict, ManifestRecord.toDict, Json.same, Bool.and_eq_true,
    Json.sameFields_cons] at h
  obtain ⟨-, ⟨x₁, l₁, h₁⟩, ⟨x₂, l₂, h₂⟩, ⟨x₃, l₃, h₃⟩, ⟨x₄, l₄, h₄⟩, ⟨x₅, l₅, h₅⟩, ⟨x₆, l₆, h₆⟩,
    ⟨x₇, l₇, h₇⟩, ⟨x₈, l₈, h₈⟩, ⟨x₉, l₉, h₉⟩, ⟨x₁₀, l₁₀, h₁₀⟩, -⟩ := h
  have e₁ : b.record.schemaVersion = x₁ := Option.some.inj l₁
  have e₂ : b.record.releaseSequence = x₂ := Option.some.inj l₂
  have e₃ : b.record.version = x₃ := Option.some.inj l₃
  have e₄ : b.record.modelKind = x₄ := Option.some.inj l₄
  have e₅ : b.record.runtimeAbi = x₅ := Option.some.inj l₅
  have e₆ : b.record.modelSha256 = x₆ := Option.some.inj l₆
  have e₇ : b.record.modelBytes = x₇ := Option.some.inj l₇
  have e₈ : b.record.metrics.toDict = x₈ := Option.some.inj l₈
  have e₉ : b.record.createdUtc = x₉ := Option.some.inj l₉
  have e₁₀ : b.record.metadata = x₁₀ := Option.some.inj l₁₀
  subst e₁ e₂ e₃ e₄ e₅ e₆ e₇ e₈ e₉ e₁₀
  exact {
    schemaVersion := int_same h₁
    releaseSequence := int_same h₂
    version := str_same h₃
    modelKind := str_same h₄
    runtimeAbi := str_same h₅
    modelSha256 := str_same h₆
    modelBytes := int_same h₇
    metrics := metrics_same h₈
    createdUtc := str_same h₉
    metadata := h₁₀ }

end ArtifactManifest

/-- The manifest of a text, and the bytes its signature is checked against. -/
def manifestWithBytes (P : Platform) (text : JsonText) :
    Except PyError (ArtifactManifest × Bytes) := do
  let data ← strictJsonLoads P.interpreter text
  let manifest ← manifestFromDict P data
  let message ← manifest.object.canonicalBytes P
  return (manifest, message)

/-- The signed bytes of a checked manifest, in a text with white space after them,
read as the manifest, and its signature is checked against the same bytes. -/
theorem manifestWithBytes_canonical {P : Platform} (hP : P.interpreter.Lawful)
    {m : ArtifactManifest} (hm : m.Checked P) (hsorted : m.metadata.sortKeys = m.metadata)
    (hdepth : m.record.inOrder.readDepth ≤ P.interpreter.loadsNesting) {message : Bytes}
    (hb : m.object.canonicalBytes P = .ok message) {text tail : PyStr}
    (htext : utf8Encode text = .ok message) (htail : Json.skipSpace tail = []) :
    manifestWithBytes P (.str (text ++ tail)) = .ok (m, message) := by
  have htextual := (ArtifactManifest.hasText_iff hsorted).mpr
    (ArtifactManifest.object_canonicalBytes.mp hb).2
  rw [manifestWithBytes, htextual.loads hP hdepth htext htail, ok_bind,
    ArtifactManifest.manifestFromDict_inOrder, validateManifest_ok.mpr ⟨rfl, hm⟩, ok_bind, hb]
  rfl

/-- Manifests read from two texts have the same canonical bytes only if they are
equal, field by field and with exact types. -/
theorem canonical_bytes_identify (P : Platform) (hP : P.interpreter.PrintsApart)
    (text text' : JsonText) (m m' : ArtifactManifest) (message : Bytes)
    (h : manifestWithBytes P text = .ok (m, message))
    (h' : manifestWithBytes P text' = .ok (m', message)) : m.Same m' := by
  simp only [manifestWithBytes, bind_eq_ok, pure_eq_ok, Prod.mk.injEq] at h h'
  obtain ⟨_, _, _, _, _, hb, rfl, rfl⟩ := h
  obtain ⟨_, _, _, _, _, hb', rfl, rfl⟩ := h'
  exact ArtifactManifest.same_of_toDict
    (Json.dumpsBytes_injective hP (ArtifactManifest.toDict_strict _)
      (ArtifactManifest.toDict_strict _) (ArtifactManifest.object_canonicalBytes.mp hb).2
      (ArtifactManifest.object_canonicalBytes.mp hb').2)

/-! ## A release with metadata -/

namespace Sample

def platform : Platform where
  interpreter := interpreter
  fromisoformat s := if s = text ["2025-01-01T00:00:", "00+00:00"] then some (some 0) else none
  sha256 raw := if raw = model then text modelSha256 else []
  asdictNesting := 900
  ed25519Sign _ := none
  ed25519PublicKey _ := false
  ed25519Verify _ _ _ := false

def metadata : Json :=
  .obj [("a", .arr [.bool true, .null, .int 1]), ("b", .float (.finite (1 / 2)))]

def manifestThree : ArtifactManifest :=
  { manifestOne with metadata, metadata_strict := by rfl }

def manifestThreeText : PyStr := Json.render interpreter false manifestThree.toDict.sortKeys

theorem manifestThree_bytes : canonicalJsonBytes platform.interpreter manifestThree.toDict =
    .ok (manifestThreeText.flatMap utf8EncodeChar) := by
  refine Json.dumpsBytes_eq_ok.mpr ⟨by decide +kernel, utf8Encode_eq_ok.mpr ⟨?_, rfl⟩⟩
  decide +kernel

theorem manifestOne_header : manifestOne.CheckedHeader platform where
  schema := rfl
  model_bytes := by decide
  kind_and_abi := by decide
  sha256 := by rfl
  created_utc := by rfl

theorem manifestThree_checked : manifestThree.Checked platform where
  toCheckedHeader := ⟨manifestOne_header.schema, manifestOne_header.model_bytes,
    manifestOne_header.kind_and_abi, manifestOne_header.sha256, manifestOne_header.created_utc⟩
  metadata_object := rfl
  metadata_bytes := by
    refine ⟨_, Json.dumpsBytes_eq_ok.mpr ⟨by decide +kernel,
      utf8Encode_eq_ok.mpr ⟨by decide +kernel, rfl⟩⟩, ?_⟩
    decide +kernel

theorem manifestThree_encoded :
    utf8Encode manifestThreeText = .ok (manifestThreeText.flatMap utf8EncodeChar) :=
  utf8Encode_eq_ok.mpr ⟨by decide +kernel, rfl⟩

theorem manifestThree_read {tail : PyStr} (htail : Json.skipSpace tail = []) :
    manifestWithBytes platform (.str (manifestThreeText ++ tail)) =
      .ok (manifestThree, manifestThreeText.flatMap utf8EncodeChar) :=
  manifestWithBytes_canonical interpreter_lawful manifestThree_checked rfl (by decide)
    (ArtifactManifest.object_canonicalBytes.mpr ⟨by decide, manifestThree_bytes⟩)
    manifestThree_encoded htail

end Sample

theorem canonical_bytes_identify_sample :
    Sample.manifestThree.Same Sample.manifestThree :=
  canonical_bytes_identify Sample.platform Sample.interpreter_lawful.printsApart
    (.str (Sample.manifestThreeText ++ [])) (.str (Sample.manifestThreeText ++ [chr 0x0A])) _ _ _
    (Sample.manifestThree_read rfl) (Sample.manifestThree_read rfl)

end EdgeFort
