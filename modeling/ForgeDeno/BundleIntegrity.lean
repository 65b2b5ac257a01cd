import ForgeDeno.BundleManifest
import ForgeDeno.ExceptRules
import ForgeDeno.ProgramRules

namespace ForgeDeno

open List

/-- A `WasmArtifactReader` with everything it does on its own: `ρ` is its state, `contents` what its
buffers hold in a state, and a buffer it has returned may change with every later state. -/
structure ArtifactReader (ρ : Type) where
  /-- the promise of `readArtifact(path)`, up to the turn in which its reader goes on -/
  read : JsString → ρ → Except Thrown Nat × ρ
  contents : ρ → Nat → List UInt8
  /-- what happens while the host waits for a digest -/
  elapse : ρ → ρ

structure ReadState (ρ : Type) where
  reader : ρ
  reads : List JsString

structure VerifiedWasmBundle where
  manifest : WasmBundleManifestV1
  manifestBytes : List UInt8
  sourceBytes : List UInt8
  glueBytes : List UInt8
  coreModuleBytes : List (JsString × List UInt8)

/-- What the host takes from its platform: the digest and the order of `localeCompare`. -/
structure BundlePlatform where
  sha256 : List UInt8 → List UInt8
  localeLe : JsString → JsString → Bool

def hexByte (b : UInt8) : JsString :=
  let hex (n : Nat) : UInt16 := if n < 10 then (0x30 + n).toUInt16 else (0x57 + n).toUInt16
  [hex (b.toNat / 16), hex (b.toNat % 16)]

def sha256Hex (platform : BundlePlatform) (bytes : List UInt8) : JsString :=
  (platform.sha256 bytes).flatMap hexByte

section

variable {ρ : Type}

/-- `Uint8Array.from(await readArtifact(path))` with the handler around it: the copy is taken when
the promise has settled, and no one else can reach it. -/
def copyArtifact (reader : ArtifactReader ρ) (path message : JsString) :
    Program (ReadState ρ) Thrown (List UInt8) :=
  .act fun s =>
    let (result, next) := reader.read path s.reader
    let after : ReadState ρ := ⟨next, s.reads ++ [path]⟩
    match result with
    | .ok buffer => (.ok (reader.contents next buffer), after)
    | .error cause =>
      let isIntegrity := (cause.runtime?.map WasmRuntimeError.cls) = some .integrity
      (.error (if isIntegrity then cause
        else .caused (WasmErrorClass.integrity.error message) cause), after)

def verifyDigest (platform : BundlePlatform) (reader : ArtifactReader ρ) (path : JsString)
    (bytes : List UInt8) (expected : JsString) : Program (ReadState ρ) Thrown Unit :=
  .act fun s =>
    let actual := sha256Hex platform bytes
    let after : ReadState ρ := ⟨reader.elapse s.reader, s.reads⟩
    if actual = expected then (.ok (), after)
    else (.error (wasmIntegrityError (js "SHA-256 mismatch for " ++ JsonText.quote path ++
      js ": expected " ++ expected ++ js ", got " ++ actual)), after)

def descriptors (platform : BundlePlatform) (manifest : WasmBundleManifestV1) :
    List (JsString × WasmArtifactDescriptor) :=
  [(js "source", manifest.source), (js "glue", manifest.glue)] ++
    (manifest.coreModules.mergeSort fun a b => platform.localeLe a.1 b.1).map fun entry =>
      (js "core module " ++ entry.1, entry.2)

def checkDescriptors (paths : List JsString) : List (JsString × WasmArtifactDescriptor) → Except Thrown Unit
  | [] => .ok ()
  | (label, descriptor) :: rest => do
    if paths.contains descriptor.path then
      throw (wasmManifestError (js "multiple artifacts use path " ++
        JsonText.quote descriptor.path))
    validateDescriptor descriptor label
    checkDescriptors (descriptor.path :: paths) rest

def readArtifacts (platform : BundlePlatform) (reader : ArtifactReader ρ)
    (verified : List (JsString × List UInt8)) : List (JsString × WasmArtifactDescriptor) →
      Program (ReadState ρ) Thrown (List (JsString × List UInt8))
  | [] => pure verified
  | (_, descriptor) :: rest => do
    let bytes ← copyArtifact reader descriptor.path
      (js "unable to read component artifact " ++ JsonText.quote descriptor.path)
    verifyDigest platform reader descriptor.path bytes descriptor.sha256
    readArtifacts platform reader ((descriptor.path, bytes) :: verified) rest

def requireVerified (values : List (JsString × List UInt8)) (path : JsString) : Except Thrown (List UInt8) :=
  match lookupMember values path with
  | some value => .ok value
  | none => .error (wasmIntegrityError (js "verified artifact " ++ JsonText.quote path ++
      js " is missing"))

def requireCoreModules (values : List (JsString × List UInt8)) :
    List (JsString × WasmArtifactDescriptor) → Except Thrown (List (JsString × List UInt8))
  | [] => .ok []
  | (name, descriptor) :: rest => do
    let bytes ← requireVerified values descriptor.path
    let others ← requireCoreModules values rest
    return (name, bytes) :: others

def acceptManifest (platform : BundlePlatform) (compatibility : WasmCompatibility)
    (manifestBytes : List UInt8) : Except Thrown WasmBundleManifestV1 := do
  let manifest ← BundleManifest.parseManifest manifestBytes
  BundleManifest.validateCompatibility manifest compatibility
  checkDescriptors [] (descriptors platform manifest)
  return manifest

def assembleBundle (manifest : WasmBundleManifestV1) (manifestBytes : List UInt8)
    (verified : List (JsString × List UInt8)) : Except Thrown VerifiedWasmBundle := do
  let coreModuleBytes ← requireCoreModules verified manifest.coreModules
  let sourceBytes ← requireVerified verified manifest.source.path
  let glueBytes ← requireVerified verified manifest.glue.path
  return { manifest, manifestBytes, sourceBytes, glueBytes, coreModuleBytes }

def verifyWasmBundle (platform : BundlePlatform) (locator : WasmBundleLocator)
    (compatibility : WasmCompatibility) (reader : ArtifactReader ρ) :
    Program (ReadState ρ) Thrown VerifiedWasmBundle := do
  .lift (assertRelativeArtifactPath locator.manifestPath (js "manifestPath"))
  .lift (assertSha256 locator.manifestSha256 (js "manifestSha256"))
  let manifestBytes ← copyArtifact reader locator.manifestPath
    (js "unable to read the component manifest")
  verifyDigest platform reader locator.manifestPath manifestBytes locator.manifestSha256
  let manifest ← .lift (acceptManifest platform compatibility manifestBytes)
  let verified ← readArtifacts platform reader [] (descriptors platform manifest)
  .lift (assembleBundle manifest manifestBytes verified)

end

structure WasmBundleManifestV1.Compatible (manifest : WasmBundleManifestV1)
    (compatibility : WasmCompatibility) : Prop where
  schema : manifest.schema = BundleManifest.supportedSchema compatibility
  abi : manifest.abi = BundleManifest.supportedAbi compatibility
  componentVersion : manifest.componentVersion = compatibility.componentVersion
  witPackage : manifest.witPackage = compatibility.witPackage

structure VerifiedWasmBundle.Genuine (platform : BundlePlatform) (locator : WasmBundleLocator)
    (compatibility : WasmCompatibility) (bundle : VerifiedWasmBundle) : Prop where
  digest : sha256Hex platform bundle.manifestBytes = locator.manifestSha256
  parsed : BundleManifest.parseManifest bundle.manifestBytes = .ok bundle.manifest
  compatible : bundle.manifest.Compatible compatibility
  source : sha256Hex platform bundle.sourceBytes = bundle.manifest.source.sha256
  glue : sha256Hex platform bundle.glueBytes = bundle.manifest.glue.sha256
  coreModules : List.Forall₂
    (fun entry declared => entry.1 = declared.1 ∧ sha256Hex platform entry.2 = declared.2.sha256)
    bundle.coreModuleBytes bundle.manifest.coreModules

structure ManifestAccepted (platform : BundlePlatform) (locator : WasmBundleLocator)
    (compatibility : WasmCompatibility) (manifestBytes : List UInt8)
    (manifest : WasmBundleManifestV1) : Prop where
  digest : sha256Hex platform manifestBytes = locator.manifestSha256
  parsed : BundleManifest.parseManifest manifestBytes = .ok manifest
  compatible : manifest.Compatible compatibility
  paths : ∀ entry ∈ descriptors platform manifest,
    assertRelativeArtifactPath entry.2.path (entry.1 ++ js ".path") = .ok ()

def ReadsInOrder (platform : BundlePlatform) (locator : WasmBundleLocator)
    (compatibility : WasmCompatibility) (reads : List JsString) : Prop :=
  reads = [] ∨ reads = [locator.manifestPath] ∨ ∃ manifestBytes manifest n,
    ManifestAccepted platform locator compatibility manifestBytes manifest ∧
      reads = locator.manifestPath :: ((descriptors platform manifest).map fun entry => entry.2.path).take n

open ExceptRules

theorem validateCompatibility_compatible {manifest : WasmBundleManifestV1} {compatibility : WasmCompatibility}
    (accepted : BundleManifest.validateCompatibility manifest compatibility = .ok ()) :
    manifest.Compatible compatibility := by
  unfold BundleManifest.validateCompatibility at accepted
  obtain ⟨schema, accepted⟩ := check_ok.mp accepted
  obtain ⟨abi, accepted⟩ := check_ok.mp accepted
  obtain ⟨version, accepted⟩ := check_ok.mp accepted
  obtain ⟨package, _⟩ := check_ok.mp accepted
  exact ⟨not_not.mp schema, not_not.mp abi, not_not.mp version, not_not.mp package⟩

theorem checkDescriptors_accepted {entries : List (JsString × WasmArtifactDescriptor)}
    {paths : List JsString} (accepted : checkDescriptors paths entries = .ok ()) :
    (∀ entry ∈ entries, assertRelativeArtifactPath entry.2.path (entry.1 ++ js ".path") = .ok () ∧
      entry.2.path ∉ paths) ∧ (entries.map fun entry => entry.2.path).Nodup := by
  induction entries generalizing paths with
  | nil => exact ⟨nofun, nodup_nil⟩
  | cons entry rest ih =>
    unfold checkDescriptors at accepted
    obtain ⟨first, accepted⟩ := check_ok.mp accepted
    obtain ⟨_, valid, accepted⟩ := bind_ok.mp accepted
    obtain ⟨_, relative, _⟩ := bind_ok.mp valid
    obtain ⟨others, distinct⟩ := ih accepted
    refine ⟨fun other mem => ?_, ?_⟩
    · rcases mem_cons.mp mem with rfl | mem
      · exact ⟨relative, by simpa using first⟩
      · obtain ⟨fine, unseen⟩ := others other mem
        exact ⟨fine, fun seen => unseen (mem_cons_of_mem _ seen)⟩
    · rw [map_cons, nodup_cons]
      refine ⟨fun again => ?_, distinct⟩
      obtain ⟨other, mem, same⟩ := mem_map.mp again
      exact (others other mem).2 (same ▸ mem_cons_self)

theorem acceptManifest_accepted {platform : BundlePlatform} {compatibility : WasmCompatibility}
    {manifestBytes : List UInt8} {manifest : WasmBundleManifestV1}
    (accepted : acceptManifest platform compatibility manifestBytes = .ok manifest) :
    BundleManifest.parseManifest manifestBytes = .ok manifest ∧ manifest.Compatible compatibility ∧
      (∀ entry ∈ descriptors platform manifest,
        assertRelativeArtifactPath entry.2.path (entry.1 ++ js ".path") = .ok ()) ∧
      ((descriptors platform manifest).map fun entry => entry.2.path).Nodup := by
  unfold acceptManifest at accepted
  obtain ⟨parsed, parses, accepted⟩ := bind_ok.mp accepted
  obtain ⟨_, compatible, accepted⟩ := bind_ok.mp accepted
  obtain ⟨_, checked, accepted⟩ := bind_ok.mp accepted
  cases pure_ok.mp accepted
  obtain ⟨paths, distinct⟩ := checkDescriptors_accepted checked
  exact ⟨parses, validateCompatibility_compatible compatible, fun entry mem => (paths entry mem).1, distinct⟩

section

variable {ρ : Type} {platform : BundlePlatform}

theorem copyArtifact_meets (reader : ArtifactReader ρ) (path message : JsString) (before : List JsString) :
    (copyArtifact reader path message).Meets (fun s => s.reads = before)
      (fun _ s => s.reads = before ++ [path]) (fun s => s.reads = before ++ [path]) := by
  rintro s rfl
  refine ⟨fun bytes t ran => ?_, fun e t ran => ?_⟩
  all_goals
    unfold copyArtifact Program.act at ran
    simp only at ran
    split at ran <;> cases ran
    rfl

theorem verifyDigest_meets (platform : BundlePlatform) (reader : ArtifactReader ρ) (path : JsString) (bytes : List UInt8) (expected : JsString)
    (reads : List JsString) : (verifyDigest platform reader path bytes expected).Meets (fun s => s.reads = reads)
      (fun _ s => s.reads = reads ∧ sha256Hex platform bytes = expected) (fun s => s.reads = reads) := by
  rintro s rfl
  by_cases same : sha256Hex platform bytes = expected
  · have ran : (verifyDigest platform reader path bytes expected).run s =
        (.ok (), ⟨reader.elapse s.reader, s.reads⟩) := if_pos same
    refine ⟨fun _ t eq => ?_, fun e t eq => ?_⟩
    · cases ran.symm.trans eq
      exact ⟨rfl, same⟩
    · cases ran.symm.trans eq
  · refine ⟨fun _ t eq => ?_, fun e t eq => ?_⟩
    · unfold verifyDigest Program.act at eq
      simp only [if_neg same] at eq
      cases eq
    · unfold verifyDigest Program.act at eq
      simp only [if_neg same] at eq
      cases eq
      rfl

theorem readArtifacts_meets (platform : BundlePlatform) (reader : ArtifactReader ρ)
    (entries : List (JsString × WasmArtifactDescriptor))
    (distinct : (entries.map fun entry => entry.2.path).Nodup)
    (verified : List (JsString × List UInt8)) (before : List JsString) :
    (readArtifacts platform reader verified entries).Meets (fun s => s.reads = before)
      (fun result s => s.reads = before ++ entries.map (fun entry => entry.2.path) ∧
        (∀ path, (∀ entry ∈ entries, entry.2.path ≠ path) →
          lookupMember result path = lookupMember verified path) ∧
        ∀ entry ∈ entries, ∃ bytes, lookupMember result entry.2.path = some bytes ∧
          sha256Hex platform bytes = entry.2.sha256)
      (fun s => ∃ n, s.reads = before ++ (entries.map fun entry => entry.2.path).take n) := by
  induction entries generalizing verified before with
  | nil =>
    refine .pure fun s reads => ⟨by simpa using reads, fun _ _ => rfl, fun entry mem => ?_⟩
    cases mem
  | cons entry rest ih =>
    obtain ⟨label, descriptor⟩ := entry
    rw [map_cons, nodup_cons] at distinct
    obtain ⟨fresh, distinct⟩ := distinct
    have unlike : ∀ entry ∈ rest, entry.2.path ≠ descriptor.path := fun entry mem same =>
      fresh (mem_map.mpr ⟨entry, mem, same⟩)
    have read := (copyArtifact_meets reader descriptor.path
      (js "unable to read component artifact " ++ JsonText.quote descriptor.path) before).weaken
      (fun _ _ after => after) (F := fun s => ∃ n, s.reads =
        before ++ ((descriptor.path :: rest.map fun entry => entry.2.path).take n))
      fun s after => ⟨1, after⟩
    refine read.bind fun bytes => ?_
    have verify := (verifyDigest_meets platform reader descriptor.path
      bytes descriptor.sha256 (before ++ [descriptor.path])).weaken
      (fun _ _ after => after) (F := fun s => ∃ n, s.reads =
        before ++ ((descriptor.path :: rest.map fun entry => entry.2.path).take n))
      fun s after => ⟨1, after⟩
    refine verify.bind fun _ => .known fun genuine => ?_
    refine (ih distinct ((descriptor.path, bytes) :: verified) (before ++ [descriptor.path])).weaken
      (fun result s after => ?_) fun s after => ?_
    · obtain ⟨reads, kept, found⟩ := after
      have here : lookupMember result descriptor.path = some bytes := by
        rw [kept descriptor.path unlike]
        simp [lookupMember]
      refine ⟨by simpa using reads, fun path other => ?_, fun entry mem => ?_⟩
      · have another : descriptor.path ≠ path := other _ mem_cons_self
        rw [kept path fun entry mem => other entry (mem_cons_of_mem _ mem)]
        simp [lookupMember, another]
      · rcases mem_cons.mp mem with rfl | mem
        · exact ⟨bytes, here, genuine⟩
        · exact found entry mem
    · obtain ⟨n, reads⟩ := after
      exact ⟨n + 1, by simpa using reads⟩

variable {verified : List (JsString × List UInt8)}

theorem requireCoreModules_genuine
    {declared : List (JsString × WasmArtifactDescriptor)} {entries : List (JsString × List UInt8)}
    (found : ∀ entry ∈ declared, ∃ bytes, lookupMember verified entry.2.path = some bytes ∧
      sha256Hex platform bytes = entry.2.sha256) (required : requireCoreModules verified declared = .ok entries) :
    List.Forall₂ (fun entry declared => entry.1 = declared.1 ∧
      sha256Hex platform entry.2 = declared.2.sha256) entries declared := by
  induction declared generalizing entries with
  | nil =>
    cases required
    exact .nil
  | cons first rest ih =>
    obtain ⟨bytes, held, genuine⟩ := found first mem_cons_self
    unfold requireCoreModules requireVerified at required
    rw [held] at required
    obtain ⟨_, same, required⟩ := bind_ok.mp required
    cases same
    obtain ⟨others, taken, added⟩ := bind_ok.mp required
    cases pure_ok.mp added
    exact .cons ⟨rfl, genuine⟩ (ih (fun entry mem => found entry (mem_cons_of_mem _ mem)) taken)

theorem requireVerified_genuine
    {descriptor : WasmArtifactDescriptor} {bytes : List UInt8}
    (found : ∃ bytes, lookupMember verified descriptor.path = some bytes ∧
      sha256Hex platform bytes = descriptor.sha256)
    (required : requireVerified verified descriptor.path = .ok bytes) :
    sha256Hex platform bytes = descriptor.sha256 := by
  obtain ⟨held, lookup, genuine⟩ := found
  unfold requireVerified at required
  rw [lookup] at required
  cases required
  exact genuine

theorem assembleBundle_genuine {locator : WasmBundleLocator} {compatibility : WasmCompatibility}
    {manifest : WasmBundleManifestV1} {manifestBytes : List UInt8}
    {bundle : VerifiedWasmBundle}
    (accepted : ManifestAccepted platform locator compatibility manifestBytes manifest)
    (found : ∀ entry ∈ descriptors platform manifest, ∃ bytes, lookupMember verified entry.2.path = some bytes ∧
        sha256Hex platform bytes = entry.2.sha256)
    (assembled : assembleBundle manifest manifestBytes verified = .ok bundle) :
    bundle.Genuine platform locator compatibility := by
  unfold assembleBundle at assembled
  obtain ⟨coreModuleBytes, coreModules, assembled⟩ := bind_ok.mp assembled
  obtain ⟨sourceBytes, source, assembled⟩ := bind_ok.mp assembled
  obtain ⟨glueBytes, glue, assembled⟩ := bind_ok.mp assembled
  cases pure_ok.mp assembled
  refine ⟨accepted.digest, accepted.parsed, accepted.compatible,
    requireVerified_genuine (found (js "source", manifest.source) ?_) source,
    requireVerified_genuine (found (js "glue", manifest.glue) ?_) glue,
    requireCoreModules_genuine (fun entry mem => ?_) coreModules⟩
  · exact mem_cons_self
  · exact mem_cons_of_mem _ mem_cons_self
  · refine found (js "core module " ++ entry.1, entry.2) (mem_append_right _ ?_)
    exact mem_map.mpr ⟨entry, (mergeSort_perm ..).mem_iff.mpr mem, rfl⟩

end

section

variable {ρ : Type}

theorem verifyWasmBundle_meets (platform : BundlePlatform) (locator : WasmBundleLocator)
    (compatibility : WasmCompatibility) (reader : ArtifactReader ρ) :
    (verifyWasmBundle platform locator compatibility reader).Meets (fun s => s.reads = [])
      (fun bundle s => bundle.Genuine platform locator compatibility ∧
        ReadsInOrder platform locator compatibility s.reads)
      (fun s => ReadsInOrder platform locator compatibility s.reads) := by
  unfold verifyWasmBundle
  refine .bind (.lift (fun _ _ start _ => start) fun s start => .inl start) fun _ => ?_
  refine .bind (.lift (fun _ _ start _ => start) fun s start => .inl start) fun _ => ?_
  have read := (copyArtifact_meets reader locator.manifestPath
    (js "unable to read the component manifest") []).weaken (fun _ _ after => after)
    (F := fun s => ReadsInOrder platform locator compatibility s.reads)
    fun s after => .inr (.inl after)
  refine read.bind fun manifestBytes => ?_
  have verify := (verifyDigest_meets platform reader
    locator.manifestPath manifestBytes locator.manifestSha256 [locator.manifestPath]).weaken
    (fun _ _ after => after)
    (F := fun s => ReadsInOrder platform locator compatibility s.reads)
    fun s after => .inr (.inl after)
  refine verify.bind fun _ => .known fun digest => ?_
  refine .bind (Q := fun manifest s => s.reads = [locator.manifestPath] ∧
    acceptManifest platform compatibility manifestBytes = .ok manifest)
    (.lift (fun _ _ reads ok => ⟨reads, ok⟩) fun s reads => .inr (.inl reads)) ?_
  refine fun manifest => .known fun ok => ?_
  obtain ⟨parsed, compatible, paths, distinct⟩ := acceptManifest_accepted ok
  have accepted : ManifestAccepted platform locator compatibility manifestBytes manifest :=
    ⟨digest, parsed, compatible, paths⟩
  have artifacts := (readArtifacts_meets platform reader
    (descriptors platform manifest) distinct [] [locator.manifestPath]).weaken
    (fun _ _ after => after)
    (F := fun s => ReadsInOrder platform locator compatibility s.reads)
    fun s ⟨n, reads⟩ => .inr (.inr ⟨_, _, n, accepted, reads⟩)
  have whole (s : ReadState ρ) (reads : s.reads = [locator.manifestPath] ++
      (descriptors platform manifest).map fun entry => entry.2.path) :
      ReadsInOrder platform locator compatibility s.reads := by
    refine .inr (.inr ⟨_, _, (descriptors platform manifest).length, accepted, ?_⟩)
    rw [reads, take_of_length_le (by simp)]
    rfl
  refine artifacts.bind fun verified => .lift (fun bundle s after assembled => ?_) fun s after => whole s after.1
  exact ⟨assembleBundle_genuine accepted after.2.2 assembled, whole s after.1⟩

/-- Whatever the reader answers, a bundle that is returned is genuine, and no artifact is read before
its manifest has been accepted. -/
theorem verifyWasmBundle_integrity (platform : BundlePlatform) (locator : WasmBundleLocator)
    (compatibility : WasmCompatibility) (reader : ArtifactReader ρ) (start : ρ) :
    let ended := (verifyWasmBundle platform locator compatibility reader).run ⟨start, []⟩
    (∀ bundle, ended.1 = .ok bundle → bundle.Genuine platform locator compatibility) ∧
      ReadsInOrder platform locator compatibility ended.2.reads := by
  intro ended
  obtain ⟨value, error⟩ :=
    verifyWasmBundle_meets platform locator compatibility reader ⟨start, []⟩ rfl
  rcases ran : ended with ⟨_ | bundle, after⟩
  · exact ⟨fun bundle impossible => (by cases impossible), error _ _ ran⟩
  · obtain ⟨genuine, order⟩ := value _ _ ran
    refine ⟨fun returned eq => ?_, order⟩
    cases eq
    exact genuine

end

section sample

def sampleManifest : JsString :=
  let emptyDigest := js "e3b0c44298fc1c149afbf4c8996fb92427ae41e4649b934ca495991b7852b855"
  let descriptor (path : JsString) : JsString :=
    js "\x7b\"path\":\"" ++ path ++ js "\",\"sha256\":\"" ++ emptyDigest ++ js "\"\x7d"
  let operation (name : JsString) : JsString :=
    JsonText.quote name ++ js ":\x7b\"capability\":" ++
      JsonText.quote (BundleManifest.expectedCapability name) ++
      js ",\"retrySafe\":false,\"securitySensitive\":false\x7d"
  let capabilities := (GOFORGE_ABI_V1_OPERATIONS.map BundleManifest.expectedCapability).eraseDups
  let joined (parts : List JsString) : JsString := (js ",").intercalate parts
  js "\x7b\"schema\":\"goforge.bundle-manifest.v1\",\"abi\":\"goforge.abi.v1\"," ++
    js "\"componentVersion\":\"1.2.3\",\"witPackage\":\"pointerbyte:goforge@1.2.3\"," ++
    js "\"source\":" ++ descriptor (js "goforge.component.wasm") ++
    js ",\"glue\":" ++ descriptor (js "goforge.js") ++
    js ",\"coreModules\":\x7b\"goforge.core.wasm\":" ++ descriptor (js "goforge.core.wasm") ++
    js "\x7d,\"capabilities\":[" ++ joined (capabilities.map JsonText.quote) ++
    js "],\"operations\":\x7b" ++ joined (GOFORGE_ABI_V1_OPERATIONS.map operation) ++
    js "\x7d\x7d"

def sampleBytes : List UInt8 := sampleManifest.map fun unit => unit.toUInt8

def digestBytes (digest : Nat) : List UInt8 :=
  (List.range 32).map fun i => (digest / 256 ^ (31 - i)).toUInt8

def samplePlatform : BundlePlatform where
  sha256 bytes :=
    if bytes = [] then digestBytes 0xe3b0c44298fc1c149afbf4c8996fb92427ae41e4649b934ca495991b7852b855
    else digestBytes 0xcbb3368b52527b71fc79152f319a674cc9e4424d13d476a7af90dc9f9e0ef68b
  localeLe a b := a ≤ b

def sampleReader : ArtifactReader Bool where
  read _ first := (.ok 0, first)
  contents first _ := if first then sampleBytes else []
  elapse _ := false

def sampleLocator : WasmBundleLocator where
  manifestPath := js "manifest.json"
  manifestSha256 := js "cbb3368b52527b71fc79152f319a674cc9e4424d13d476a7af90dc9f9e0ef68b"

def sampleCompatibility : WasmCompatibility where
  componentVersion := js "1.2.3"
  witPackage := js "pointerbyte:goforge@1.2.3"
  abi := none
  bundleSchema := none
  abiVersion := none
  schemaVersion := none

theorem cleared_buffer_verified : ∃ bundle : VerifiedWasmBundle, bundle.manifestBytes = sampleBytes ∧
      bundle.Genuine samplePlatform sampleLocator sampleCompatibility := by
  have shows : ((verifyWasmBundle samplePlatform sampleLocator sampleCompatibility
      sampleReader).run ⟨true, []⟩).1.toOption.any
        (fun bundle => bundle.manifestBytes = sampleBytes) = true := by decide +kernel
  obtain ⟨integrity, _⟩ := verifyWasmBundle_integrity samplePlatform sampleLocator
    sampleCompatibility sampleReader true
  rcases ran : ((verifyWasmBundle samplePlatform sampleLocator sampleCompatibility
      sampleReader).run ⟨true, []⟩).1 with _ | bundle
  · rw [ran] at shows
    cases shows
  · rw [ran] at shows
    exact ⟨bundle, of_decide_eq_true shows, integrity bundle ran⟩

end sample

end ForgeDeno
