/-
A signed manifest is published and read back.

The run of `add` in which nothing fails comes down to whether the staged entry
verifies.  It does if its manifest file is within the limit for reading and no deeper than
`json.loads` reads, the keys of the metadata are in the order of their strings, and the key
id stands in its file as it was.
-/
import EdgeFort.Json.Characters
import EdgeFort.Registry.Publication

namespace EdgeFort
namespace Publish

open Effect Manifest

variable {P : Platform} {c : AddCall} {m : ArtifactManifest} {w : World} {stage : PyStr}

/-! ## The run without failures -/

/-- The files of an entry. -/
def entryFiles (model message signature keyId : Bytes) : Entries :=
  [(.model, model), (.manifest, message ++ [0x0A]), (.signature, signature), (.keyId, keyId)]

/-- The registry with an entry being staged. -/
def stageWith (w : World) (stage : PyStr) (es : Entries) : World :=
  { w with root := put w.root stage (some (.dir es)) }

/-- The registry with the entry put in place. -/
def publishedWith (w : World) (stage version : PyStr) (es : Entries) : World :=
  { w with
    root := put (put w.root stage none) version (some (.dir es))
    published := w.published ++ [(version, .dir es)] }

theorem stageWith_lookup (es : Entries) :
    (stageWith w stage es).root.lookup stage = some (.dir es) := lookup_put_self _

theorem fill_stageWith (es : Entries) (file : FileName) (data : Bytes) :
    fill (stageWith w stage es) stage file data =
      (.ok (), stageWith w stage (withFile es file data)) := by
  rw [fill_eq (stageWith_lookup es), stageWith, stageWith, put_put]

theorem exec_copyModel {model : Bytes} (hmodel : w.models c.modelPath = some model) (es : Entries) :
    sem.exec (.copyModel c.modelPath stage) (stageWith w stage es) =
      (.ok (), stageWith w stage (withFile es .model model)) := by
  have hmodel' : (stageWith w stage es).models c.modelPath = some model := hmodel
  simp only [sem, exec, hmodel', fill_stageWith]

theorem exec_writeFile (es : Entries) (file : FileName) (data : Bytes) :
    sem.exec (.writeFile stage file data) (stageWith w stage es) =
      (.ok (), stageWith w stage (withFile es file data)) := fill_stageWith es file data

theorem run_writeMetadata (w : World) (stage : PyStr) {message signature keyId : Bytes}
    (hmessage : c.manifest.canonicalBytes P = .ok message)
    (hsignature : utf8Encode (c.signature ++ [chr 0x0A]) = .ok signature)
    (hkeyId : utf8Encode (c.keyId ++ [chr 0x0A]) = .ok keyId) (es : Entries) :
    sem.run (writeMetadata P c stage) (stageWith w stage es) =
      (.ok (), stageWith w stage (withFile (withFile (withFile es .manifest (message ++ [0x0A]))
        .signature signature) .keyId keyId)) := by
  have hwrite : ∀ es file data, sem.run (perform (.writeFile stage file data))
      (stageWith w stage es) = (.ok (), stageWith w stage (withFile es file data)) :=
    fun es file data => (sem.run_perform _ _).trans (exec_writeFile es file data)
  rw [writeMetadata, hmessage, hsignature, hkeyId]
  rw [Sem.run_bind_ok (Sem.run_liftM _ _ _), Sem.run_bind_ok (hwrite _ _ _),
    Sem.run_bind_ok (Sem.run_liftM _ _ _), Sem.run_bind_ok (hwrite _ _ _),
    Sem.run_bind_ok (Sem.run_liftM _ _ _), hwrite]

/-- The scan passes if every published entry verifies and has another sequence
number. -/
theorem run_assertReleaseSequenceAvailable {K : TrustedKeyring} {seq : Int} {v : PyStr}
    {names : List PyStr} (h : ∀ name ∈ names, hidden name = false →
      (registry P K).checkEntry seq v name ((w.root.lookup name).getD .missing) = .ok ()) :
    sem.run (assertReleaseSequenceAvailable P K seq v names) w = (.ok (), w) := by
  induction names with
  | nil => rfl
  | cons name names ih =>
    obtain ⟨hname, hnames⟩ := List.forall_mem_cons.mp h
    rw [assertReleaseSequenceAvailable]
    cases hh : hidden name with
    | true => exact ih hnames
    | false =>
      have hcheck := hname hh
      have hone : sem.run (do
          let entry ← perform (.look name)
          liftM ((registry P K).checkEntry seq v name entry) : Cmd Unit) w = (.ok (), w) := by
        rw [Sem.run_bind_ok (sem.run_perform w _), ← hcheck]
        exact sem.run_liftM _ _
      exact (Sem.run_bind_ok hone).trans (ih hnames)

/-- What a call of `add` finds: its files can be written, its version is a name that is free
and the registry accepts its sequence number. -/
structure Ready (P : Platform) (c : AddCall) (m : ArtifactManifest)
    (w : World) (model message signature keyId : Bytes) : Prop where
  model : w.models c.modelPath = some model
  message : c.manifest.canonicalBytes P = .ok message
  signature : utf8Encode (c.signature ++ [chr 0x0A]) = .ok signature
  keyId : utf8Encode (c.keyId ++ [chr 0x0A]) = .ok keyId
  name : checkName m.version = .ok ()
  free : w.root.lookup m.version = none
  scan : ∀ name ∈ w.root.map Prod.fst, hidden name = false →
    (registry P c.keyring).checkEntry m.releaseSequence m.version name
      ((w.root.lookup name).getD .missing) = .ok ()

section Run

variable {model message signature keyId : Bytes}

theorem withFile_entryFiles (model message signature keyId : Bytes) :
    withFile (withFile (withFile (withFile [] .model model) .manifest (message ++ [0x0A]))
      .signature signature) .keyId keyId = entryFiles model message signature keyId := by
  simp [withFile, entryFiles]

theorem hidden_freshStage (root : List (PyStr × Node)) : hidden (freshStage root) = true :=
  hidden_of_stagePrefix ⟨_, rfl⟩

theorem version_ne_stage (h : hidden stage = true) : m.version ≠ stage := by
  rintro rfl
  exact absurd (hidden_version.symm.trans h) Bool.false_ne_true

theorem exec_publish (h : w.root.lookup m.version = none) (hstage : hidden stage = true)
    (es : Entries) : sem.exec (.publish stage m.version) (stageWith w stage es) =
      (.ok (), publishedWith w stage m.version es) := by
  have hfree : (stageWith w stage es).root.lookup m.version = none :=
    (lookup_put_ne (version_ne_stage hstage) _).trans h
  simp only [sem, exec, hfree, stageWith_lookup]
  simp only [stageWith, publishedWith, put_put]

/-- The section publishes just when the staged entry verifies. -/
theorem run_publishSection (h : Ready P c m w model message signature keyId) :
    sem.run (publishSection P c m) w =
      match (registry P c.keyring).verifyDirectory
          (.dir (entryFiles model message signature keyId)) m.version with
      | .ok _ => (.ok (), publishedWith w (freshStage w.root) m.version
          (entryFiles model message signature keyId))
      | .error e => (.error e, { w with root := put w.root (freshStage w.root) none }) := by
  have hname : sem.run (liftM (checkName m.version) : Cmd Unit) w = (.ok (), w) := by
    rw [h.name]
    exact sem.run_liftM w _
  have hlook : sem.run (perform (.look m.version)) w = (.ok .missing, w) := by
    rw [perform, Sem.run_perform]
    simp only [sem, exec, h.free, Option.getD_none]
  have hfree : ∀ e, sem.run (liftM (raiseIf (Node.missing.present = true) e) : Cmd Unit) w =
      (.ok (), w) := fun e => sem.run_liftM w _
  have hlist : sem.run (perform .listdir) w = (.ok (w.root.map Prod.fst), w) :=
    sem.run_perform _ _
  have hstage : sem.run (perform .mkdtemp) w =
      (.ok (freshStage w.root), stageWith w (freshStage w.root) []) := sem.run_perform _ _
  have hcopy : sem.run (perform (.copyModel c.modelPath (freshStage w.root)))
      (stageWith w (freshStage w.root) []) =
        (.ok (), stageWith w (freshStage w.root) (withFile [] .model model)) :=
    (sem.run_perform _ _).trans (exec_copyModel h.model [])
  have hfiles := run_writeMetadata w (freshStage w.root) h.message h.signature h.keyId
    (withFile [] .model model)
  rw [withFile_entryFiles] at hfiles
  have hentry : sem.run (perform (.look (freshStage w.root))) (stageWith w (freshStage w.root)
      (entryFiles model message signature keyId)) = (.ok (.dir (entryFiles model message signature
        keyId)), stageWith w (freshStage w.root) (entryFiles model message signature keyId)) := by
    rw [perform, Sem.run_perform]
    simp only [sem, exec, stageWith_lookup, Option.getD_some]
  rw [publishSection, Sem.run_bind_ok hname, Sem.run_bind_ok hlook, Sem.run_bind_ok (hfree _), Sem.run_bind_ok hlist,
    Sem.run_bind_ok (run_assertReleaseSequenceAvailable h.scan), Sem.run_bind_ok hstage]
  cases hverify : (registry P c.keyring).verifyDirectory
      (.dir (entryFiles model message signature keyId)) m.version with
  | ok m' =>
    refine Sem.run_catch_ok ?_
    rw [Sem.run_bind_ok hcopy, Sem.run_bind_ok hfiles, Sem.run_bind_ok hentry, hverify,
      Sem.run_bind_ok (sem.run_liftM _ _), perform, Sem.run_perform]
    exact exec_publish h.free (hidden_freshStage _) _
  | error e =>
    rw [Sem.run_catch, Sem.run_bind_ok hcopy, Sem.run_bind_ok hfiles, Sem.run_bind_ok hentry,
      hverify, Sem.run_bind_error (sem.run_liftM _ _)]
    refine (Sem.run_bind_ok (sem.run_perform _ _)).trans ?_
    simp only [sem, stageWith, put_put, Sem.run_throw]

/-- `add`, once its checks before the lock have passed. -/
theorem run_add (hchecked : sem.run (checked P c) w = (.ok m, w)) :
    (Party.solo sem).run (add P c) w = match sem.run (publishSection P c m) w with
      | (.ok _, w) => (.ok m.version, w)
      | (.error e, w) => (.error e, w) := by
  rw [add, Sem.run_bind_ok ((Party.solo_lift sem _ _).trans hchecked), Sem.run_bind,
    Party.solo_locked]
  obtain ⟨r, w'⟩ := sem.run (publishSection P c m) w
  cases r <;> rfl

theorem run_checked (hversion : c.manifest.version = .str m.version)
    (hverify : c.keyring.verify P c.keyId c.manifest c.signature = .ok m)
    (hmodel : w.models c.modelPath = some model) (hsize : (model.length : Int) = m.modelBytes)
    (hsha : P.sha256 model = m.modelSha256) : sem.run (checked P c) w = (.ok m, w) := by
  have hsafe : safeVersionField c.manifest.version = .ok m.version := by
    rw [hversion]
    exact safeVersion_ok_iff.mpr ⟨m.version_semver, rfl⟩
  have hread : sem.run (perform (.readModel c.modelPath)) w = (.ok (some model), w) := by
    rw [perform, Sem.run_perform]
    simp only [sem, exec, hmodel]
  have hartifact : verifyArtifact P (some model) m = .ok () := by
    rw [verifyArtifact, raiseIf_neg (not_not.mpr hsize), raiseIf_neg (not_not.mpr hsha)]
    rfl
  rw [checked, hsafe, hverify, Sem.run_bind_ok (sem.run_liftM _ _),
    Sem.run_bind_ok (sem.run_liftM _ _), Sem.run_bind_ok hread, hartifact,
    Sem.run_bind_ok (sem.run_liftM _ _)]
  rfl

end Run

/-! ## The staged entry -/

theorem dropWhile_append_singleton {p : CodePoint → Bool} {d : CodePoint} (hd : p d = true)
    (s : PyStr) : (s ++ [d]).dropWhile p = [] ∧ s.dropWhile p = [] ∨
      (s ++ [d]).dropWhile p = s.dropWhile p ++ [d] := by
  induction s with
  | nil => exact Or.inl (by simp [hd])
  | cons c s ih =>
    by_cases hc : p c = true
    · simpa [List.dropWhile_cons, hc] using ih
    · exact Or.inr (by simp [hc])

/-- A newline at the end of a text is stripped. -/
theorem strip_newline (s : PyStr) : strip (s ++ [chr 0x0A]) = strip s := by
  have hspace : isPySpace (chr 0x0A) = true := by decide
  rcases dropWhile_append_singleton hspace s with ⟨hl, hr⟩ | h
  · rw [strip, strip, hl, hr]
  · rw [strip, strip, h, List.reverse_append, List.reverse_singleton, List.singleton_append,
      List.dropWhile_cons_of_pos hspace]

theorem strip_eq_self {s : PyStr} (h : ∀ c ∈ s, isPySpace c = false) : strip s = s := by
  have hself : ∀ t : PyStr, (∀ c ∈ t, isPySpace c = false) → t.dropWhile isPySpace = t := by
    intro t ht
    cases t with
    | nil => rfl
    | cons c t => rw [List.dropWhile_cons_of_neg (by simp [ht c List.mem_cons_self])]
  rw [strip, hself s h, hself _ fun c hc => h c (List.mem_reverse.mp hc), List.reverse_reverse]

theorem strip_b64encode (b : Bytes) : strip (b64encode b) = b64encode b := by
  refine strip_eq_self fun c hc => ?_
  have := char_mem_b64encode b c hc
  simp only [isPySpace, Bool.or_eq_false_iff, Bool.and_eq_false_iff, decide_eq_false_iff_not]
  omega

/-- A text file reads as its text, stripped. -/
theorem textFromBytes_encode {K : TrustedKeyring} {s : PyStr} {b : Bytes}
    (h : utf8Encode (s ++ [chr 0x0A]) = .ok b) :
    (P.trust K).textFromBytes b = .ok (strip s) := by
  simp only [Platform.trust, utf8Decode_encode h, ok_bind, strip_newline]
  rfl

section Entry

variable {model message signature keyId : Bytes}

theorem readSmallFileAt_ok {es : Entries} {file : FileName} {data : Bytes} {label : PyStr}
    {limit : Nat} (h : es.lookup file = some data) (hlen : data.length ≤ limit) :
    Registry.readSmallFileAt es file label limit = .ok data := by
  rw [Registry.readSmallFileAt, Registry.openRegularAt, h, ok_bind,
    raiseIf_neg (Nat.not_lt.mpr hlen)]
  rfl

/-- The entry of a signed manifest verifies if its files are within the limits, the
manifest in its file is the one that was signed, and its key id reads back. -/
theorem verifyDirectory_entry (hread : (P.trust c.keyring).manifestFromBytes (message ++ [0x0A]) = .ok m)
    (h : Ready P c m w model message signature keyId)
    (hmanifest : message.length + 1 ≤ Registry.maxManifestBytes)
    (hsignature : signature.length ≤ Registry.maxSignatureBytes)
    (hkeyId : keyId.length ≤ Registry.maxKeyIdBytes)
    (hstripSignature : strip c.signature = c.signature) (hstripKeyId : strip c.keyId = c.keyId)
    (hverify : c.keyring.verify P c.keyId m.object c.signature = .ok m)
    (hsize : (model.length : Int) = m.modelBytes) (hsha : P.sha256 model = m.modelSha256) :
    (registry P c.keyring).verifyDirectory
      (.dir (entryFiles model message signature keyId)) m.version = .ok m := by
  have hmetadata : Registry.readMetadata (P.trust c.keyring)
      (entryFiles model message signature keyId) = .ok (m, c.signature, c.keyId) := by
    have hfile : (message ++ [0x0A]).length ≤ Registry.maxManifestBytes := by simpa
    rw [Registry.readMetadata, readSmallFileAt_ok rfl hfile, ok_bind,
      readSmallFileAt_ok rfl hsignature, ok_bind, readSmallFileAt_ok rfl hkeyId, ok_bind,
      hread, ok_bind, textFromBytes_encode h.signature,
      ok_bind, textFromBytes_encode h.keyId, ok_bind, hstripSignature, hstripKeyId]
    rfl
  have hkeyring : (P.trust c.keyring).keyringVerify c.keyId m c.signature = .ok () := by
    simp only [Platform.trust, hverify, ok_bind]
    rfl
  refine Registry.verifyDirectory_ok.mpr ⟨model, ?_⟩
  have hcorrupt : Registry.corruptEntry (Registry.readMetadata (P.trust c.keyring)
      (entryFiles model message signature keyId)) = .ok (m, c.signature, c.keyId) := by
    rw [hmetadata]
    rfl
  simp only [Registry.openVerifiedModel, bind_eq_ok, pure_eq_ok, raiseIf_eq_ok, not_not]
  exact ⟨_, rfl, _, hcorrupt, (), rfl, (), hkeyring, model, rfl, (), hsize, (), hsha, rfl⟩

/-- What an entry that verifies has gone through: its manifest file is within the
limit, and the manifest that was read is verified with the key id as it reads back. -/
theorem verifyDirectory_entry_needs
    (h : Ready P c m w model message signature keyId) {v : PyStr} {m' : ArtifactManifest}
    (hverified : (registry P c.keyring).verifyDirectory
      (.dir (entryFiles model message signature keyId)) v = .ok m') :
    message.length + 1 ≤ Registry.maxManifestBytes ∧
      (P.trust c.keyring).manifestFromBytes (message ++ [0x0A]) = .ok m' ∧
      ∃ m'', c.keyring.verify P (strip c.keyId) m'.object (strip c.signature) = .ok m'' := by
  obtain ⟨model', hopen⟩ := Registry.verifyDirectory_ok.mp hverified
  simp only [Registry.openVerifiedModel, bind_eq_ok, pure_eq_ok, Prod.mk.injEq] at hopen
  obtain ⟨es, hes, ⟨m₁, sig, key⟩, hmeta, _, _, _, hkeyring, _, _, _, _, _, _, _, rfl⟩ := hopen
  obtain rfl := Except.ok.inj hes
  obtain ⟨raw, sigRaw, keyRaw, hraw, hsigRaw, hkeyRaw, hlen, hread, hsig, hkey⟩ :=
    readMetadata_ok hmeta
  rw [← show message ++ [0x0A] = raw from Option.some.inj hraw] at hlen hread
  rw [← show signature = sigRaw from Option.some.inj hsigRaw] at hsig
  rw [← show keyId = keyRaw from Option.some.inj hkeyRaw] at hkey
  refine ⟨by simpa using hlen, hread, ?_⟩
  have hsig' := (textFromBytes_encode (K := c.keyring) h.signature).symm.trans hsig
  have hkey' := (textFromBytes_encode (K := c.keyring) h.keyId).symm.trans hkey
  rw [Except.ok.inj hsig', Except.ok.inj hkey']
  simp only [registry, Platform.trust, bind_eq_ok] at hkeyring
  obtain ⟨m'', hm'', -⟩ := hkeyring
  exact ⟨m'', hm''⟩

end Entry

/-! ## Signing and publishing -/

/-- A key pair of Ed25519: what the private key signs verifies under the public key,
and signatures have 64 bytes. -/
structure KeyPair (P : Platform) (privateKey publicKey : Bytes) : Prop where
  verifies : ∀ sign, P.ed25519Sign privateKey = some sign →
    ∀ message, P.ed25519Verify publicKey (sign message) message = true
  length : ∀ sign, P.ed25519Sign privateKey = some sign → ∀ message, (sign message).length = 64

theorem keyring_verify {K : TrustedKeyring} {keyId : PyStr} {o : ManifestObject}
    {key raw message : Bytes} (hrevoked : keyId ∉ K.revoked) (hkey : K.keys.lookup keyId = some key)
    (hm : o.validate P = .ok m) (hmessage : o.canonicalBytes P = .ok message)
    (hraw : P.ed25519Verify key raw message = true) :
    K.verify P keyId o (b64encode raw) = .ok m := by
  have hverify : verifyManifest P o (b64encode raw) key = .ok m :=
    verifyManifest_ok.mpr ⟨hm, raw, message, b64decode_b64encode raw, hmessage, hraw⟩
  exact TrustedKeyring.verify_ok.mpr ⟨hrevoked, key, hkey, hverify⟩

/-- What signing has signed. -/
theorem signManifest_ok {o : ManifestObject} {privateKey : Bytes} {signature : PyStr}
    (h : signManifest P o privateKey = .ok signature) :
    ∃ m message sign, o.validate P = .ok m ∧ o.canonicalBytes P = .ok message ∧
      P.ed25519Sign privateKey = some sign ∧ signature = b64encode (sign message) := by
  simp only [signManifest, bind_eq_ok] at h
  obtain ⟨m, hm, h⟩ := h
  cases hsign : P.ed25519Sign privateKey with
  | none =>
    rw [hsign] at h
    cases h
  | some sign =>
    rw [hsign] at h
    simp only [bind_eq_ok, pure_eq_ok] at h
    obtain ⟨message, hmessage, hsignature⟩ := h
    exact ⟨m, message, sign, hm, hmessage, rfl, hsignature.symm⟩

/-- A manifest that was signed with a key the keyring trusts, its model, and a
registry in which its version, the name of a directory, and its sequence number are
unused. -/
structure Signed (P : Platform) (c : AddCall) (version : PyStr) (message : Bytes) (w : World) :
    Prop where
  signed : ∃ privateKey publicKey, KeyPair P privateKey publicKey ∧
    c.keyring.keys.lookup c.keyId = some publicKey ∧
    signManifest P c.manifest privateKey = .ok c.signature
  trusted : c.keyId ∉ c.keyring.revoked
  message_eq : c.manifest.canonicalBytes P = .ok message
  model_file : ∃ model, w.models c.modelPath = some model ∧
    c.manifest.modelBytes = .int model.length ∧ c.manifest.modelSha256 = .str (P.sha256 model)
  version_eq : c.manifest.version = .str version
  version_name : (version.flatMap utf8EncodeChar).length ≤ maxNameBytes
  listing : Listing w.root
  version_unused : w.root.lookup version = none
  sequence_unused : ∀ e ∈ visible w.root, ∀ m,
    (registry P c.keyring).verifyDirectory e.2 e.1 = .ok m →
      c.manifest.releaseSequence ≠ .int m.releaseSequence

/-- What reading an entry back takes beyond that: the strings of the metadata's keys are in
the order of the keys, the manifest nests no deeper than `json.loads` reads, the manifest
and the key id fit their files, and the entries in place verify. -/
structure Fits (P : Platform) (c : AddCall) (message : Bytes) (w : World) : Prop where
  keys : c.manifest.metadata.keysInOrder P.interpreter = true
  depth : ∀ data, c.manifest.dict.written P.interpreter P.interpreter.dumpsNesting = .ok data →
    data.readDepth ≤ P.interpreter.loadsNesting
  manifest : message.length + 1 ≤ Registry.maxManifestBytes
  keyId_stripped : strip c.keyId = c.keyId
  keyId : ∃ b, utf8Encode c.keyId = .ok b ∧ b.length + 1 ≤ Registry.maxKeyIdBytes
  entries : ∀ e ∈ visible w.root, ∃ m, (registry P c.keyring).verifyDirectory e.2 e.1 = .ok m

section Signed

variable {version : PyStr} {message : Bytes}

/-- The signed manifest, with what its keyring and its files give. -/
structure Signed.Manifest (P : Platform) (c : AddCall) (version : PyStr) (message : Bytes)
    (w : World) (m : ArtifactManifest) (model raw key : Bytes) : Prop where
  validated : c.manifest.validate P = .ok m
  version_eq : m.version = version
  message_eq : c.manifest.canonicalBytes P = .ok message
  key_trusted : c.keyring.keys.lookup c.keyId = some key
  verifies : P.ed25519Verify key raw message = true
  signature_eq : c.signature = b64encode raw
  signature_length : raw.length = 64
  model_file : w.models c.modelPath = some model
  model_bytes : (model.length : Int) = m.modelBytes
  sha256 : P.sha256 model = m.modelSha256

theorem Signed.manifest (h : Signed P c version message w) :
    ∃ m model raw key, Signed.Manifest P c version message w m model raw key := by
  obtain ⟨privateKey, key, hpair, hkey, hsign⟩ := h.signed
  obtain ⟨m, message', sign, hm, hmessage, hsign, hsignature⟩ := signManifest_ok hsign
  obtain ⟨model, hmodel, hsize, hsha⟩ := h.model_file
  obtain rfl := Except.ok.inj (hmessage.symm.trans h.message_eq)
  have hheader := (ManifestObject.validate_ok.mp hm).1
  have hversion := h.version_eq
  rw [hheader] at hsize hsha hversion
  exact ⟨m, model, sign message', key, {
    validated := hm
    version_eq := Json.str.inj hversion
    message_eq := hmessage
    key_trusted := hkey
    verifies := hpair.verifies _ hsign _
    signature_eq := hsignature
    signature_length := hpair.length _ hsign _
    model_file := hmodel
    model_bytes := (Json.int.inj hsize).symm
    sha256 := (Json.str.inj hsha).symm }⟩

variable {model raw key : Bytes}

/-- The keyring accepts the signature. -/
theorem Signed.Manifest.verify (hm : Signed.Manifest P c version message w m model raw key)
    (htrusted : c.keyId ∉ c.keyring.revoked) :
    c.keyring.verify P c.keyId c.manifest c.signature = .ok m := by
  rw [hm.signature_eq]
  exact keyring_verify htrusted hm.key_trusted hm.validated hm.message_eq hm.verifies

/-- What was written of the metadata is in key order if the keys are. -/
theorem Signed.Manifest.sorted (hm : Signed.Manifest P c version message w m model raw key)
    (hkeys : c.manifest.metadata.keysInOrder P.interpreter = true) :
    m.metadata.sortKeys = m.metadata :=
  (PyObject.sortKeys_written (ManifestObject.validate_ok.mp hm.validated).2.2.2.1).mpr hkeys

/-- The manifest as it is read back has the bytes that were signed. -/
theorem Signed.Manifest.object_bytes (hm : Signed.Manifest P c version message w m model raw key)
    (hsorted : m.metadata.sortKeys = m.metadata) : m.object.canonicalBytes P = .ok message := by
  obtain ⟨hcopy, htext⟩ := ManifestObject.hasText hm.validated hm.message_eq
  have hwritten := (ManifestObject.validate_ok.mp hm.validated).2.2.2.1
  rw [← PyObject.copyDepth_written hwritten] at hcopy
  exact ArtifactManifest.object_canonicalBytes.mpr
    ⟨hcopy, (ArtifactManifest.hasText_iff hsorted).mp htext⟩

/-- The keyring accepts the signature on the manifest as it is read back. -/
theorem Signed.Manifest.verify_object
    (hm : Signed.Manifest P c version message w m model raw key)
    (htrusted : c.keyId ∉ c.keyring.revoked) (hsorted : m.metadata.sortKeys = m.metadata) :
    c.keyring.verify P c.keyId m.object c.signature = .ok m := by
  rw [hm.signature_eq]
  have hchecked := ManifestObject.checked hm.validated hsorted
  exact keyring_verify htrusted hm.key_trusted (hchecked.object_validate hsorted)
    (hm.object_bytes hsorted) hm.verifies

/-- The signature and its newline as bytes. -/
theorem Signed.Manifest.signature_file
    (hm : Signed.Manifest P c version message w m model raw key) :
    ∃ b, utf8Encode (c.signature ++ [chr 0x0A]) = .ok b ∧
      b.length ≤ Registry.maxSignatureBytes := by
  have hascii : ∀ d ∈ b64encode raw, d.val < 0x80 := fun d hd => by
    have := char_mem_b64encode raw d hd
    omega
  obtain ⟨b, hb, hlen⟩ := length_utf8Encode_ascii hascii
  have hfile := utf8Encode_append hb (show utf8Encode [chr 0x0A] = .ok [0x0A] from rfl)
  rw [hm.signature_eq]
  refine ⟨_, hfile, ?_⟩
  rw [List.length_append, hlen, length_b64encode, hm.signature_length]
  decide

/-- The scan finds no entry in the way. -/
theorem Signed.scan (h : Signed P c version message w)
    (hsequence : c.manifest.releaseSequence = .int m.releaseSequence)
    (hentries : ∀ e ∈ visible w.root, ∃ m, (registry P c.keyring).verifyDirectory e.2 e.1 = .ok m) :
    ∀ name ∈ w.root.map Prod.fst, hidden name = false →
      (registry P c.keyring).checkEntry m.releaseSequence m.version name
        ((w.root.lookup name).getD .missing) = .ok () := by
  intro name hname hvisible
  obtain ⟨e, he, rfl⟩ := List.mem_map.mp hname
  have hlisted : e ∈ visible w.root := mem_visible.mpr ⟨he, hvisible⟩
  obtain ⟨existing, hexisting⟩ := hentries e hlisted
  have hunused := h.sequence_unused e hlisted existing hexisting
  rw [hsequence] at hunused
  have hne : ¬(existing.releaseSequence = m.releaseSequence ∧ existing.version ≠ m.version) :=
    fun heq => hunused (congrArg Json.int heq.1.symm)
  obtain ⟨model, hopen⟩ := Registry.verifyDirectory_ok.mp hexisting
  obtain ⟨es, hdir⟩ := Registry.openVerifiedModel_dir hopen
  rw [h.listing.lookup he, Option.getD_some, Registry.checkEntry,
    if_neg (of_decide_eq_false hvisible), hexisting, hdir]
  exact raiseIf_neg hne

theorem Signed.Manifest.header (hm : Signed.Manifest P c version message w m model raw key) :
    c.manifest.version = .str m.version ∧ c.manifest.releaseSequence = .int m.releaseSequence := by
  rw [(ManifestObject.validate_ok.mp hm.validated).1]
  exact ⟨rfl, rfl⟩

/-- The call is ready to publish once the entries in place have passed the scan. -/
theorem Signed.ready (h : Signed P c version message w)
    (hm : Signed.Manifest P c version message w m model raw key) {signature keyId : Bytes}
    (hsignature : utf8Encode (c.signature ++ [chr 0x0A]) = .ok signature)
    (hkeyId : utf8Encode c.keyId = .ok keyId)
    (hscan : ∀ name ∈ w.root.map Prod.fst, hidden name = false →
      (registry P c.keyring).checkEntry m.releaseSequence m.version name
        ((w.root.lookup name).getD .missing) = .ok ()) :
    Ready P c m w model message signature (keyId ++ [0x0A]) where
  model := hm.model_file
  message := hm.message_eq
  signature := hsignature
  keyId := utf8Encode_append hkeyId (show utf8Encode [chr 0x0A] = .ok [0x0A] from rfl)
  name := by
    rw [hm.version_eq]
    exact raiseIf_neg (Nat.not_lt.mpr h.version_name)
  free := hm.version_eq ▸ h.version_unused
  scan := hscan

/-- A signed manifest that fits is published, and its entry verifies as the manifest. -/
theorem Signed.publishes (hP : P.interpreter.Lawful) (h : Signed P c version message w)
    (hfits : Fits P c message w) :
    ∃ m es, m.version = version ∧ m.object.canonicalBytes P = .ok message ∧
      (registry P c.keyring).verifyDirectory (.dir es) version = .ok m ∧
      (Party.solo sem).run (add P c) w =
        (.ok version, publishedWith w (freshStage w.root) version es) := by
  obtain ⟨m, model, raw, key, hm⟩ := h.manifest
  obtain ⟨signature, hsignature, hsignatureLen⟩ := hm.signature_file
  obtain ⟨keyId, hkeyId, hkeyIdLen⟩ := hfits.keyId
  obtain ⟨hversion, hsequence⟩ := hm.header
  have hready := h.ready hm hsignature hkeyId (h.scan hsequence hfits.entries)
  have hsorted := hm.sorted hfits.keys
  have htext := (ManifestObject.hasText hm.validated hm.message_eq).2
  have hdepth : m.record.inOrder.readDepth ≤ P.interpreter.loadsNesting :=
    hfits.depth _ (ManifestObject.written_inOrder hm.validated hm.message_eq)
  have hread : (P.trust c.keyring).manifestFromBytes (message ++ [0x0A]) = .ok m := by
    rw [htext.manifestFromBytes hP hdepth]
    exact validateManifest_ok.mpr ⟨rfl, ManifestObject.checked hm.validated hsorted⟩
  have hentry := verifyDirectory_entry hread hready hfits.manifest hsignatureLen
    (by simpa using hkeyIdLen) (hm.signature_eq ▸ strip_b64encode raw) hfits.keyId_stripped
    (hm.verify_object h.trusted hsorted) hm.model_bytes hm.sha256
  have hsection := run_publishSection hready
  rw [hentry] at hsection
  obtain rfl := hm.version_eq
  refine ⟨m, _, rfl, hm.object_bytes hsorted, hentry, ?_⟩
  rw [run_add (run_checked hversion (hm.verify h.trusted) hm.model_file hm.model_bytes hm.sha256),
    hsection]

/-- A manifest that was signed is published under its version, and inspecting the
version later, whatever else the registry holds by then, gives a manifest with the
bytes that were signed. -/
theorem signed_manifest_reads_back (P : Platform) (hP : P.interpreter.Lawful) (c : AddCall)
    (version : PyStr) (message : Bytes) (w : World) (h : Signed P c version message w)
    (hfits : Fits P c message w) :
    ∃ w', (Party.solo sem).run (add P c) w = (.ok version, w') ∧
      ∀ root, root.lookup version = w'.root.lookup version →
        ∃ d m, ({ registry P c.keyring with root } : Registry).inspect version = .ok (d, m) ∧
          m.object.canonicalBytes P = .ok message := by
  obtain ⟨m, es, hversion, hmessage, hentry, hrun⟩ := h.publishes hP hfits
  refine ⟨_, hrun, fun root hroot => ⟨.dir es, m, ?_, hmessage⟩⟩
  have hlookup : root.lookup version = some (.dir es) := hroot.trans (lookup_put_self _)
  have hsafe : safeVersion version = .ok version :=
    safeVersion_ok_iff.mpr ⟨hversion ▸ m.version_semver, rfl⟩
  simp only [Registry.inspect, Registry.dir, bind_eq_ok, pure_eq_ok, Prod.mk.injEq]
  refine ⟨_, ⟨_, hsafe, rfl⟩, _, ?_, ?_, rfl⟩
  · simp only [hlookup, Option.getD_some]
    exact hentry
  · simp only [hlookup, Option.getD_some]

/-- The section returns only if the scan has passed every entry. -/
theorem scan_of_returns {w' : World} (hrun : sem.run (publishSection P c m) w = (.ok (), w')) :
    ∀ name ∈ w.root.map Prod.fst, hidden name = false →
      (registry P c.keyring).checkEntry m.releaseSequence m.version name
        ((w.root.lookup name).getD .missing) = .ok () := by
  have hwp : wp sem (publishSection P c m)
      (fun _ _ => ∀ name ∈ w.root.map Prod.fst, hidden name = false →
        (registry P c.keyring).checkEntry m.releaseSequence m.version name
          ((w.root.lookup name).getD .missing) = .ok ())
      (fun _ _ => True) (fun _ => True) w := by
    refine wp_bind.mpr (wp_liftM.mpr ⟨trivial, fun _ _ => ?_, fun _ _ => trivial⟩)
    refine wp_bind.mpr (wp_look trivial ?_ fun _ => trivial)
    refine wp_bind.mpr (wp_liftM.mpr ⟨trivial, fun _ _ => ?_, fun _ _ => trivial⟩)
    refine wp_bind.mpr (wp_listdir trivial ?_ fun _ => trivial)
    refine wp_bind.mpr (wp_assertReleaseSequenceAvailable trivial (fun _ => trivial) fun hscan => ?_)
    exact wp_mono (wp_trivial _ _) (fun _ _ _ _ => hscan) (fun _ _ _ _ => trivial) fun _ h => h
  have hfinishes := sem.run_finishes (publishSection P c m) w
  rw [hrun] at hfinishes
  exact wp_returns hwp hfinishes

/-- `add` returns only if the manifest is within the limit, what is read of it verifies with
the key id as it reads back, and the entries in place verify. -/
theorem Signed.returns_only (h : Signed P c version message w)
    (hkeyId : ∃ b, utf8Encode c.keyId = .ok b) {v : PyStr} {w' : World}
    (hrun : (Party.solo sem).run (add P c) w = (.ok v, w')) :
    message.length + 1 ≤ Registry.maxManifestBytes ∧
      (∃ m m', (P.trust c.keyring).manifestFromBytes (message ++ [0x0A]) = .ok m ∧
        c.keyring.verify P (strip c.keyId) m.object (strip c.signature) = .ok m') ∧
      ∀ e ∈ visible w.root, ∃ m, (registry P c.keyring).verifyDirectory e.2 e.1 = .ok m := by
  obtain ⟨m, model, raw, key, hm⟩ := h.manifest
  obtain ⟨signature, hsignature, -⟩ := hm.signature_file
  obtain ⟨keyId, hkeyId⟩ := hkeyId
  rw [run_add (run_checked hm.header.1 (hm.verify h.trusted) hm.model_file hm.model_bytes
    hm.sha256)] at hrun
  obtain ⟨w₁, hsection⟩ : ∃ w₁, sem.run (publishSection P c m) w = (.ok (), w₁) := by
    cases hr : sem.run (publishSection P c m) w with
    | mk r w₁ =>
      cases r with
      | ok u => exact ⟨w₁, rfl⟩
      | error e =>
        rw [hr] at hrun
        cases (Prod.mk.inj hrun).1
  have hscan := scan_of_returns hsection
  have hready := h.ready hm hsignature hkeyId hscan
  have hentries : ∀ e ∈ visible w.root, ∃ m,
      (registry P c.keyring).verifyDirectory e.2 e.1 = .ok m := by
    intro e he
    obtain ⟨hroot, hvisible⟩ := mem_visible.mp he
    have hcheck := hscan e.1 (List.mem_map_of_mem hroot) hvisible
    rw [h.listing.lookup hroot, Option.getD_some] at hcheck
    obtain ⟨existing, hexisting, -⟩ := Registry.checkEntry_ok (of_decide_eq_false hvisible) hcheck
    exact ⟨existing, hexisting⟩
  cases hverified : (registry P c.keyring).verifyDirectory
      (.dir (entryFiles model message signature (keyId ++ [0x0A]))) m.version with
  | error e =>
    rw [run_publishSection hready, hverified] at hsection
    cases (Prod.mk.inj hsection).1
  | ok m' =>
    obtain ⟨hlen, hread, m'', hverify⟩ := verifyDirectory_entry_needs hready hverified
    exact ⟨hlen, ⟨m', m'', hread, hverify⟩, hentries⟩

end Signed

end Publish

/-! ## Releases that are signed -/

namespace Sample

open Effect Publish

def privateKey : Bytes := List.replicate 32 1

def publicKey : Bytes :=
  [138, 136, 227, 221, 116, 9, 241, 149, 253, 82, 219, 45, 60, 186, 93, 114, 202, 103, 9, 191,
    29, 148, 18, 27, 243, 116, 136, 1, 180, 15, 111, 92]

def signatureThree : Bytes :=
  [162, 181, 148, 68, 22, 7, 200, 218, 101, 205, 3, 138, 203, 40, 92, 170, 9, 64, 99, 178, 171,
    178, 242, 150, 99, 128, 253, 54, 21, 231, 175, 162, 56, 161, 151, 229, 159, 231, 231, 33, 230,
    50, 234, 107, 149, 201, 71, 169, 215, 57, 142, 153, 253, 208, 248, 177, 55, 155, 246, 174, 33,
    27, 141, 7]

def signatureNumeric : Bytes :=
  [225, 127, 65, 82, 115, 226, 41, 145, 199, 104, 78, 80, 241, 21, 231, 97, 189, 97, 222, 41, 5,
    58, 228, 154, 156, 124, 122, 22, 247, 30, 189, 159, 132, 227, 178, 125, 252, 208, 88, 21, 66,
    158, 165, 16, 95, 191, 48, 63, 150, 143, 78, 92, 128, 122, 36, 41, 32, 128, 109, 152, 64, 72,
    172, 10]

def signatureDeep : Bytes :=
  [110, 255, 72, 185, 142, 90, 225, 1, 195, 252, 101, 9, 141, 191, 23, 14, 177, 204, 81, 185, 53,
    186, 12, 155, 9, 7, 104, 212, 248, 162, 142, 72, 146, 57, 161, 100, 181, 106, 162, 163, 69,
    209, 53, 136, 185, 186, 1, 125, 125, 192, 207, 200, 154, 142, 245, 150, 70, 106, 85, 86, 95,
    38, 12, 4]

def signatureLong : Bytes :=
  [222, 42, 182, 176, 75, 5, 25, 235, 193, 176, 74, 39, 75, 150, 158, 233, 116, 252, 235, 221, 86,
    240, 103, 207, 9, 160, 52, 110, 48, 24, 147, 126, 81, 226, 11, 40, 80, 192, 62, 212, 121, 56,
    95, 121, 192, 13, 225, 163, 139, 66, 71, 151, 60, 165, 110, 117, 140, 95, 38, 77, 61, 64, 221,
    15]

/-- The manifest with other metadata. -/
def manifestWith (v : Json) (h : v.strict = true) : ArtifactManifest :=
  { manifestOne with metadata := v, metadata_strict := h }

/-- The bytes of the text a manifest of such metadata has. -/
def messageWith (I : Interpreter) (v : Json) (h : v.strict = true) : Bytes :=
  (Json.render I false (manifestWith v h).record.inOrder).flatMap utf8EncodeChar

/-- The manifest with such metadata, before its checks. -/
def objectWith (o : PyObject) : ManifestObject := { manifestOne.header with metadata := o }

def messageThree : Bytes := manifestThreeText.flatMap utf8EncodeChar

/-- `{9: True, 10: True}`, whose keys are in another order than their strings. -/
def numericMetadata : PyObject := .dict [(.int 9, .bool true), (.int 10, .bool true)]

def numericWritten : Json := .obj [("9", .bool true), ("10", .bool true)]

theorem numericWritten_strict : numericWritten.strict = true := by decide

def messageNumeric : Bytes := messageWith interpreter numericWritten numericWritten_strict

/-- `{"a": [{}]}` -/
def deepMetadata : Json := .obj [("a", .arr [.obj []])]

theorem deepMetadata_strict : deepMetadata.strict = true := by decide

def messageDeep : Bytes := messageWith shallowInterpreter deepMetadata deepMetadata_strict

/-- The signature of a message under the private key, for the messages signed below. -/
def signatureOf (message : Bytes) : Bytes :=
  if message = messageThree then signatureThree
  else if message = messageNumeric then signatureNumeric
  else if message = messageDeep then signatureDeep
  else signatureLong

def signingWith (I : Interpreter) : Platform :=
  { platform with
    interpreter := I
    ed25519Sign := fun key => if key = privateKey then some signatureOf else none
    ed25519PublicKey := fun key => key = publicKey
    ed25519Verify := fun key raw message => key = publicKey && raw = signatureOf message }

def signing : Platform := signingWith interpreter

/-- With no more recursion left than the program's own documents take. -/
def shallowSigning : Platform := signingWith shallowInterpreter

theorem signing_pair (I : Interpreter) : KeyPair (signingWith I) privateKey publicKey where
  verifies sign h message := by
    obtain rfl : signatureOf = sign := Option.some.inj h
    simp [signingWith]
  length sign h message := by
    obtain rfl : signatureOf = sign := Option.some.inj h
    rw [signatureOf]
    split_ifs <;> rfl

theorem checked_signing {m : ArtifactManifest} (h : m.Checked platform) : m.Checked signing :=
  ⟨⟨h.schema, h.model_bytes, h.kind_and_abi, h.sha256, h.created_utc⟩, h.metadata_object,
    h.metadata_bytes⟩

/-- A call with a manifest and its signature. -/
def signedCall (o : ManifestObject) (message : Bytes) (keyId : PyStr) : AddCall where
  keyring := ⟨[(keyId, publicKey)], []⟩
  modelPath := "model.npz"
  manifest := o
  signature := b64encode (signatureOf message)
  keyId := keyId

/-- A registry root with its lock file, and an entry or none. -/
def rootWith (entry : List (PyStr × Node)) : World where
  root := (".registry.lock", .file (.malformed [])) :: entry
  models path := if path = "model.npz" then some model else none
  published := []

theorem listing_rootWith {entry : List (PyStr × Node)}
    (hnames : (py ".registry.lock" :: entry.map Prod.fst).Nodup)
    (hpresent : ∀ e ∈ entry, e.2.present = true) : Listing (rootWith entry).root :=
  ⟨hnames, List.forall_mem_cons.mpr ⟨rfl, hpresent⟩⟩

section SignedSample

variable {I : Interpreter} {o : ManifestObject} {m : ArtifactManifest} {message : Bytes}

theorem signed_sample (hm : o.validate (signingWith I) = .ok m)
    (hmessage : o.canonicalBytes (signingWith I) = .ok message) (hbytes : m.modelBytes = 1)
    (hsha : m.modelSha256 = text modelSha256) (hversion : m.version = "1.0.0") (keyId : PyStr)
    {entry : List (PyStr × Node)} (hlisting : Listing (rootWith entry).root)
    (hunused : (rootWith entry).root.lookup (py "1.0.0") = none)
    (hentry : ∀ e ∈ visible (rootWith entry).root, ∀ m',
      (Publish.registry (signingWith I) (signedCall o message keyId).keyring).verifyDirectory
        e.2 e.1 ≠ .ok m') :
    Signed (signingWith I) (signedCall o message keyId) "1.0.0" message (rootWith entry) where
  signed := by
    refine ⟨privateKey, publicKey, signing_pair I, List.lookup_cons_self, ?_⟩
    have hsign : (signingWith I).ed25519Sign privateKey = some signatureOf := by
      simp [signingWith]
    rw [show (signedCall o message keyId).manifest = o from rfl, signManifest, hm, ok_bind, hsign]
    dsimp only
    rw [hmessage]
    rfl
  trusted := List.not_mem_nil
  message_eq := hmessage
  model_file := by
    have hfile : (rootWith entry).models (signedCall o message keyId).modelPath = some model := by
      simp [rootWith, signedCall]
    have hheader := (ManifestObject.validate_ok.mp hm).1
    refine ⟨model, hfile, ?_, ?_⟩
    · rw [show (signedCall o message keyId).manifest.modelBytes = m.header.modelBytes from
        congrArg ManifestHeader.modelBytes hheader]
      exact congrArg Json.int (hbytes.trans rfl)
    · rw [show (signedCall o message keyId).manifest.modelSha256 = m.header.modelSha256 from
        congrArg ManifestHeader.modelSha256 hheader]
      exact congrArg Json.str (hsha.trans rfl)
  version_eq := by
    have hheader := (ManifestObject.validate_ok.mp hm).1
    rw [show (signedCall o message keyId).manifest.version = m.header.version from
      congrArg ManifestHeader.version hheader]
    exact congrArg Json.str hversion
  version_name := by decide
  listing := hlisting
  version_unused := hunused
  sequence_unused e he m' hm' := absurd hm' (hentry e he m')

theorem signed_empty (hm : o.validate (signingWith I) = .ok m)
    (hmessage : o.canonicalBytes (signingWith I) = .ok message) (hbytes : m.modelBytes = 1)
    (hsha : m.modelSha256 = text modelSha256) (hversion : m.version = "1.0.0") (keyId : PyStr) :
    Signed (signingWith I) (signedCall o message keyId) "1.0.0" message (rootWith []) := by
  refine signed_sample hm hmessage hbytes hsha hversion keyId (listing_rootWith (by simp) (by simp))
    (by rfl) ?_
  rw [show visible (rootWith []).root = [] from rfl]
  exact fun e he => absurd he List.not_mem_nil

end SignedSample

/-- The key id of the public key. -/
def signingKeyId : PyStr := text ["34750f98bd59fcfc"]

theorem signingKeyId_encodes : ∃ b, utf8Encode signingKeyId = .ok b ∧
    b.length + 1 ≤ Registry.maxKeyIdBytes :=
  ⟨_, utf8Encode_eq_ok.mpr ⟨by rfl, rfl⟩, by decide⟩

theorem manifestThree_validate : manifestThree.object.validate signing = .ok manifestThree :=
  (checked_signing manifestThree_checked).object_validate rfl

theorem manifestThree_message : manifestThree.object.canonicalBytes signing = .ok messageThree :=
  ArtifactManifest.object_canonicalBytes.mpr ⟨by decide, manifestThree_bytes⟩

theorem signed_three (keyId : PyStr) :
    Signed signing (signedCall manifestThree.object messageThree keyId) "1.0.0" messageThree
      (rootWith []) :=
  signed_empty manifestThree_validate manifestThree_message rfl rfl rfl keyId

theorem fits_three : Fits signing (signedCall manifestThree.object messageThree signingKeyId)
    messageThree (rootWith []) where
  keys := (PyObject.sortKeys_written
    (ManifestObject.validate_ok.mp manifestThree_validate).2.2.2.1).mp rfl
  depth data hdata := by
    have hwritten := ManifestObject.written_inOrder manifestThree_validate manifestThree_message
    rw [Except.ok.inj (hdata.symm.trans hwritten)]
    decide
  manifest := by decide +kernel
  keyId_stripped := by rfl
  keyId := signingKeyId_encodes
  entries := by
    rw [show visible (rootWith []).root = [] from rfl]
    exact fun e he => absurd he List.not_mem_nil

/-- A manifest of any model kind. -/
def manifestOfKind (kind : PyStr) : ArtifactManifest := { manifestOne with modelKind := kind }

theorem manifestOne_checked : manifestOne.Checked platform where
  toCheckedHeader := manifestOne_header
  metadata_object := rfl
  metadata_bytes := by
    refine ⟨_, Json.dumpsBytes_eq_ok.mpr ⟨by rfl,
      utf8Encode_eq_ok.mpr ⟨by rfl, rfl⟩⟩, ?_⟩
    decide

theorem manifestOfKind_checked {kind : PyStr} (h : kind ≠ []) :
    (manifestOfKind kind).Checked platform :=
  have hone := manifestOne_checked
  ⟨⟨hone.schema, hone.model_bytes, ⟨h, hone.kind_and_abi.2⟩, hone.sha256, hone.created_utc⟩,
    hone.metadata_object, hone.metadata_bytes⟩

theorem exists_messageOfKind {kind : PyStr} (h : utf8Encodable kind = true) :
    ∃ b, canonicalJsonBytes interpreter (manifestOfKind kind).toDict = .ok b := by
  refine Json.exists_dumpsBytes ?_ ?_
  · have hone : manifestOne.toDict.encodable = true := by rfl
    simp only [ArtifactManifest.toDict, ManifestRecord.toDict, Json.encodable,
      Json.encodableFields, Bool.and_eq_true] at hone ⊢
    obtain ⟨hschema, hsequence, hversion, ⟨hkey, -⟩, hrest⟩ := hone
    exact ⟨hschema, hsequence, hversion, ⟨hkey, h⟩, hrest⟩
  · have hdepth : interpreter.dumpsNesting = interpreter.dumpsNesting - 1 + 1 := rfl
    have hone : manifestOne.toDict.refusal interpreter.dumpsNesting = none := by rfl
    rw [hdepth, ArtifactManifest.toDict, ManifestRecord.toDict, Json.refusal_obj,
      Json.refusalFields_eq_none] at hone ⊢
    simp only [List.forall_mem_cons] at hone ⊢
    obtain ⟨hsorts, hschema, hsequence, hversion, -, hrest⟩ := hone
    exact ⟨hsorts, hschema, hsequence, hversion, rfl, hrest⟩

end Sample

namespace Publish

open Effect EdgeFort.Sample

theorem signed_manifest_reads_back_sample :
    ∃ w', (Party.solo sem).run (add signing
        (signedCall manifestThree.object messageThree signingKeyId)) (rootWith []) =
          (.ok "1.0.0", w') ∧
      ∀ root, root.lookup (py "1.0.0") = w'.root.lookup (py "1.0.0") → ∃ d m,
        ({ Publish.registry signing
            (signedCall manifestThree.object messageThree signingKeyId).keyring with
          root } : Registry).inspect "1.0.0" = .ok (d, m) ∧
        m.object.canonicalBytes signing = .ok messageThree :=
  signed_manifest_reads_back signing interpreter_lawful _ _ _ _ (signed_three signingKeyId)
    fits_three

/-- A signed manifest is refused. -/
def Refused (P : Platform) (c : AddCall) (message : Bytes) (w : World) : Prop :=
  Signed P c "1.0.0" message w ∧ ∃ e w', (Party.solo sem).run (add P c) w = (.error e, w')

theorem Refused.of_returns {P : Platform} {c : AddCall} {message : Bytes} {w : World}
    (h : Signed P c "1.0.0" message w)
    (hreturns : ∀ v w', (Party.solo sem).run (add P c) w ≠ (.ok v, w')) :
    Refused P c message w := by
  refine ⟨h, ?_⟩
  cases hrun : (Party.solo sem).run (add P c) w with
  | mk r w' =>
    cases r with
    | ok v => exact absurd hrun (hreturns v w')
    | error e => exact ⟨e, w', rfl⟩

theorem refused_of_kind {kind : PyStr} (hne : kind ≠ []) (hkind : utf8Encodable kind = true)
    (hlong : 65536 ≤ kind.length) :
    ∃ message, Refused signing (signedCall (manifestOfKind kind).object message signingKeyId)
      message (rootWith []) := by
  obtain ⟨message, hmessage⟩ := exists_messageOfKind hkind
  have hvalid := (checked_signing (manifestOfKind_checked hne)).object_validate rfl
  have hbytes : (manifestOfKind kind).object.canonicalBytes signing = .ok message :=
    ArtifactManifest.object_canonicalBytes.mpr
      ⟨(by decide : max 4 (PyObject.dict []).copyDepth ≤ 900), hmessage⟩
  have hsigned := signed_empty hvalid hbytes rfl rfl rfl signingKeyId
  refine ⟨message, Refused.of_returns hsigned fun v w' hrun => ?_⟩
  obtain ⟨keyId, hkeyId, -⟩ := signingKeyId_encodes
  have hlimit := (hsigned.returns_only ⟨keyId, hkeyId⟩ hrun).1
  have hfield : (py "model_kind", Json.str kind) ∈
      [(py "schema_version", (manifestOfKind kind).record.schemaVersion),
        (py "release_sequence", (manifestOfKind kind).record.releaseSequence),
        (py "version", (manifestOfKind kind).record.version), (py "model_kind", Json.str kind)] := by
    simp
  have hlength := Json.length_field_le_dumpsBytes (List.mem_append_left _ hfield) hmessage
  rw [Registry.maxManifestBytes] at hlimit
  omega

/-- A registry with an entry that is an empty directory. -/
def brokenRegistry : World := rootWith [(py "0.9.0", .dir [])]

theorem broken_entry (K : TrustedKeyring) (m : ArtifactManifest) :
    (Publish.registry signing K).verifyDirectory (.dir []) "0.9.0" ≠ .ok m := by
  intro h
  cases h

theorem signed_broken : Signed signing (signedCall manifestThree.object messageThree signingKeyId)
    "1.0.0" messageThree brokenRegistry := by
  refine signed_sample manifestThree_validate manifestThree_message rfl rfl rfl signingKeyId
    (listing_rootWith (by decide) ?_) (by rfl) ?_
  · exact List.forall_mem_singleton.mpr rfl
  · rw [show visible (rootWith [(py "0.9.0", .dir [])]).root = [(py "0.9.0", .dir [])] from rfl]
    exact List.forall_mem_singleton.mpr fun m' hm' => broken_entry _ _ hm'

/-- A manifest is signed with whatever metadata can be written in it. -/
theorem signed_with {I : Interpreter} {o : PyObject} {v : Json} (h : v.strict = true)
    (hdict : Manifest.isDict o = true) (hcopy : max 4 o.copyDepth ≤ 900)
    (hmetadata : o.written I 3 = .ok v)
    (hwritten : (objectWith o).dict.written I 4 = .ok (manifestWith v h).record.inOrder)
    (hencodable : (manifestWith v h).record.inOrder.encodable = true)
    (hlen : ((Json.render I false v).flatMap utf8EncodeChar).length ≤ Manifest.maxMetadataBytes) :
    (objectWith o).validate (signingWith I) = .ok (manifestWith v h) ∧
      (objectWith o).canonicalBytes (signingWith I) = .ok (messageWith I v h) := by
  have hone := manifestOne_header
  have hmetadata := PyObject.written_mono hmetadata (Nat.le_of_succ_le I.dumpsNesting_ge)
  have hencodable' : v.encodable = true := by
    rw [ManifestRecord.inOrder, Json.encodable, Json.encodableFields_iff] at hencodable
    exact (hencodable (py "metadata", v) (by simp [manifestWith, ArtifactManifest.record])).2
  constructor
  · refine ManifestObject.validate_ok.mpr ⟨rfl, ⟨hone.schema, hone.model_bytes, hone.kind_and_abi,
      hone.sha256, hone.created_utc⟩, hdict, hmetadata, _, ?_, hlen⟩
    exact PyObject.canonicalBytes_eq_ok.mpr ⟨v, hmetadata, hencodable',
      utf8Encode_eq_ok.mpr ⟨Json.utf8Encodable_render hencodable', rfl⟩⟩
  · rw [ManifestObject.canonicalBytes, ManifestObject.toDict_ok.mpr ⟨hcopy, rfl⟩, ok_bind]
    exact PyObject.canonicalBytes_eq_ok.mpr ⟨_, PyObject.written_mono hwritten I.dumpsNesting_ge,
      hencodable, utf8Encode_eq_ok.mpr ⟨Json.utf8Encodable_render hencodable, rfl⟩⟩

theorem numeric_signed : (objectWith numericMetadata).validate signing =
      .ok (manifestWith numericWritten numericWritten_strict) ∧
    (objectWith numericMetadata).canonicalBytes signing = .ok messageNumeric :=
  signed_with numericWritten_strict rfl (by decide) rfl rfl (by rfl) (by decide)

theorem deep_signed : (objectWith deepMetadata.toObject).validate shallowSigning =
      .ok (manifestWith deepMetadata deepMetadata_strict) ∧
    (objectWith deepMetadata.toObject).canonicalBytes shallowSigning = .ok messageDeep :=
  signed_with deepMetadata_strict rfl (by decide) rfl rfl (by rfl) (by decide)

/-- The manifest is read back with its keys in the order of the numbers, and its signature
is checked against the text with the keys in the order of the strings. -/
theorem refused_numeric :
    Refused signing (signedCall (objectWith numericMetadata) messageNumeric signingKeyId)
      messageNumeric (rootWith []) := by
  obtain ⟨hvalid, hbytes⟩ := numeric_signed
  have hsigned := signed_empty hvalid hbytes rfl rfl rfl signingKeyId
  refine Refused.of_returns hsigned fun v w' hrun => ?_
  obtain ⟨keyId, hkeyId, -⟩ := signingKeyId_encodes
  obtain ⟨-, ⟨m, m', hread, hverify⟩, -⟩ := hsigned.returns_only ⟨keyId, hkeyId⟩ hrun
  have htext := (ManifestObject.hasText hvalid hbytes).2
  obtain rfl := htext.manifest_unique interpreter_lawful hread
  obtain ⟨-, key, hkey, hverify⟩ := TrustedKeyring.verify_ok.mp hverify
  obtain ⟨-, raw, message, hraw, hmessage, hsignature⟩ := verifyManifest_ok.mp hverify
  have hcanonical := (ArtifactManifest.object_canonicalBytes.mp hmessage).2
  obtain ⟨-, hsorted⟩ := Json.dumpsBytes_eq_ok.mp hcanonical
  obtain ⟨-, rfl⟩ := utf8Encode_eq_ok.mp hsorted
  dsimp only [signedCall] at hraw
  rw [strip_b64encode, b64decode_b64encode] at hraw
  have hraw : signatureOf messageNumeric = raw := Option.some.inj hraw
  simp only [signingWith, Bool.and_eq_true, decide_eq_true_eq] at hsignature
  have hother : signatureOf messageNumeric ≠ signatureOf ((Json.render interpreter false
      (manifestWith numericWritten numericWritten_strict).toDict.sortKeys).flatMap
        utf8EncodeChar) := by
    decide +kernel
  exact hother (hraw.trans hsignature.2)

/-- A manifest that is deeper than the reader recurses is not read back. -/
theorem refused_deep :
    Refused shallowSigning (signedCall (objectWith deepMetadata.toObject) messageDeep signingKeyId)
      messageDeep (rootWith []) := by
  obtain ⟨hvalid, hbytes⟩ := deep_signed
  have hsigned := signed_empty hvalid hbytes rfl rfl rfl signingKeyId
  refine Refused.of_returns hsigned fun v w' hrun => ?_
  obtain ⟨keyId, hkeyId, -⟩ := signingKeyId_encodes
  obtain ⟨-, ⟨m, m', hread, -⟩, -⟩ := hsigned.returns_only ⟨keyId, hkeyId⟩ hrun
  have htext := (ManifestObject.hasText hvalid hbytes).2
  obtain ⟨e, he, -⟩ := htext.manifestFromBytes_overflows shallowInterpreter_lawful (by decide)
    (K := (signedCall (objectWith deepMetadata.toObject) messageDeep signingKeyId).keyring)
  cases he.symm.trans hread

/-- Manifests that are signed and not published: one that its file cannot hold, one whose key
id ends in white space, one next to an entry that does not verify, one whose metadata has its
keys in another order than their strings, and one that is written and is too deep to read. -/
theorem signed_manifests_refused :
    (∃ message, Refused signing (signedCall
      (manifestOfKind (List.replicate 65536 (chr 0x61))).object message signingKeyId) message
      (rootWith [])) ∧
    Refused signing (signedCall manifestThree.object messageThree (signingKeyId ++ [chr 0x20]))
      messageThree (rootWith []) ∧
    Refused signing (signedCall manifestThree.object messageThree signingKeyId) messageThree
      brokenRegistry ∧
    Refused signing (signedCall (objectWith numericMetadata) messageNumeric signingKeyId)
      messageNumeric (rootWith []) ∧
    Refused shallowSigning (signedCall (objectWith deepMetadata.toObject) messageDeep signingKeyId)
      messageDeep (rootWith []) := by
  refine ⟨refused_of_kind ?_ ?_ ?_, ?_, ?_, refused_numeric, refused_deep⟩
  · rw [ne_eq, List.replicate_eq_nil_iff]
    decide
  · refine List.all_eq_true.mpr fun c hc => ?_
    rw [List.eq_of_mem_replicate hc]
    decide
  · rw [List.length_replicate]
  · refine Refused.of_returns (signed_three _) fun v w' hrun => ?_
    have hkeyId : utf8Encodable (signingKeyId ++ [chr 0x20]) = true := by rfl
    obtain ⟨-, ⟨m, m', -, hverify⟩, -⟩ :=
      (signed_three _).returns_only ⟨_, utf8Encode_eq_ok.mpr ⟨hkeyId, rfl⟩⟩ hrun
    obtain ⟨-, key, hkey, -⟩ := TrustedKeyring.verify_ok.mp hverify
    have hunknown : (signedCall manifestThree.object messageThree
        (signingKeyId ++ [chr 0x20])).keyring.keys.lookup
          (strip (signingKeyId ++ [chr 0x20])) = none := by rfl
    cases hunknown.symm.trans hkey
  · refine Refused.of_returns signed_broken fun v w' hrun => ?_
    obtain ⟨keyId, hkeyId, -⟩ := signingKeyId_encodes
    have hentries := (signed_broken.returns_only ⟨keyId, hkeyId⟩ hrun).2.2
    obtain ⟨m, hm⟩ := hentries (py "0.9.0", .dir []) (List.mem_singleton.mpr rfl)
    exact broken_entry _ _ hm

end Publish

end EdgeFort
