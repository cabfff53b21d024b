import Mathlib.Logic.Relation
import QCoin.Node.Repair
import QCoin.Node.Startup
import QCoin.Support.FileSystem

/-!
# The identity of a node

A node generates its keys when it starts for the first time and keeps them in a
file.  Starts fail at any file operation, they are killed, and the machine
crashes.  The keys of a start are those of all later starts if the file it
found, when it found one, had reached the disk.  A start which fails after the
rename leaves a file which may not have.
-/

namespace QCoin

open Relation
open Support
open Support.Stateful
open Support.Result

/-! ## The key file -/

structure KeypairOutput where
  scheme : String
  publicKeyHex : String
  privateKeyHex : String
deriving DecidableEq

/-- The JSON codec of `serde_json` at `KeypairOutput`. -/
class KeypairJson where
  Text : Type
  emptyText : Text
  toStringPretty : KeypairOutput → Except String Text
  fromStr : Text → Except String KeypairOutput

/-- What has been encoded is read back. -/
def KeypairJson.RoundTrips [KeypairJson] : Prop :=
  ∀ {output text}, KeypairJson.toStringPretty output = .ok text →
    KeypairJson.fromStr text = .ok output

def schemeName (id : SignatureSchemeId) : String :=
  id.display

section Files

variable [PqCrypto] [KeypairJson]

/-- `to_ascii_lowercase`. -/
def asciiLowercase (text : String) : String :=
  String.ofList (text.toList.map Char.toLower)

/-- The scheme with the given name in a key file. -/
def parsedScheme (name : String) : Except String SignatureSchemeId :=
  if asciiLowercase name = "dilithium2" then .ok .dilithium2
  else if asciiLowercase name = "falcon512" then .ok .falcon512
  else .error ("unsupported scheme '" ++ name ++ "' in keypair JSON")

def loadKeypairFromJson (text : KeypairJson.Text)
    (expectedScheme : SignatureSchemeId) :
    Except String (PublicKey × PrivateKey) := do
  let parsed ← KeypairJson.fromStr text
  let scheme ← parsedScheme parsed.scheme
  if scheme ≠ expectedScheme then
    .error ("scheme mismatch: expected " ++ expectedScheme.display ++
      ", file has " ++ scheme.display)
  else do
    let publicBytes ← fromHex parsed.publicKeyHex
    let publicKey ← (PublicKey.new scheme publicBytes).mapError
      CryptoError.display
    let privateBytes ← fromHex parsed.privateKeyHex
    let privateKey ← (PrivateKey.new scheme privateBytes).mapError
      CryptoError.display
    return (publicKey, privateKey)

end Files

/-! ## Writing the key file -/

section Writes

variable [KeypairJson]

abbrev KeyFileM :=
  Stateful (Disk FilePath KeypairJson.Text) String

abbrev KeyFileSystem :=
  FileSystem FilePath KeypairJson.Text String

variable (fs : KeyFileSystem)

namespace KeyFile

/-- The parent of a bare file name is the empty path, for which there is
nothing to create.  A path without a parent has no file name either. -/
def createParentDir (path : FilePath) : KeyFileM Unit :=
  if path.directory = "" then pure () else fs.perform (.createDirs path)

/-- The empty path cannot be opened. -/
def syncParentDir (path : FilePath) : KeyFileM Unit :=
  if path.directory = "" then
    Stateful.fail ("failed to open parent directory " ++ path.directory ++
      ": No such file or directory (os error 2)")
  else fs.perform (.syncDir path)

def writeFileAtomically (path : FilePath) (contents : KeypairJson.Text) :
    KeyFileM Unit := do
  createParentDir fs path
  if path.fileName = none then
    Stateful.fail ("path '" ++ path.display ++ "' has no file name")
  else do
    fs.perform (.create path.temp KeypairJson.emptyText)
    fs.perform (.write path.temp contents)
    fs.perform (.syncFile path.temp)
    fs.perform (.rename path.temp path)
    syncParentDir fs path

end KeyFile

def saveKeypairToJson (path : FilePath) (publicKey : PublicKey)
    (privateKey : PrivateKey) : KeyFileM Unit := do
  let payload ← Stateful.ofExcept (KeypairJson.toStringPretty {
    scheme := schemeName publicKey.scheme
    publicKeyHex := toHex publicKey.bytes
    privateKeyHex := toHex privateKey.bytes })
  KeyFile.writeFileAtomically fs path payload

/-- `file` is what the path gives, and `drawn` the bytes of a fresh key
pair. -/
def loadOrCreateKeypairFromJson [PqCrypto] (path : FilePath)
    (expectedScheme : SignatureSchemeId) (registry : PqSchemeRegistry)
    (file : FileRead KeypairJson.Text) (drawn : Bytes × Bytes) :
    KeyFileM (PublicKey × PrivateKey) :=
  match file with
  | .notFound =>
      match registry expectedScheme with
      | none => Stateful.fail ("signing scheme " ++ expectedScheme.display ++
          " is not available")
      | some sigScheme => do
          let keys ← Stateful.ofExcept
            ((keygen sigScheme.id drawn).mapError CryptoError.display)
          saveKeypairToJson fs path keys.1 keys.2
          return keys
  | .openFailed err => Stateful.fail err
  | .readFailed err => Stateful.fail err
  | .contents text =>
      Stateful.ofExcept (loadKeypairFromJson text expectedScheme)

end Writes

section Files

variable [PqCrypto] [KeypairJson]

/-! ## Reading back what was saved -/

omit [PqCrypto] [KeypairJson] in
theorem mapError_eq_ok {ε ε' α : Type} {x : Except ε α} {f : ε → ε'} {a : α} :
    x.mapError f = .ok a ↔ x = .ok a := by
  cases x <;> simp [Except.mapError]

omit [KeypairJson] in
/-- What `new` checks it checks again when the key is read. -/
theorem keygen_spec {id : SignatureSchemeId} {drawn : Bytes × Bytes}
    {keys : PublicKey × PrivateKey} (h : keygen id drawn = .ok keys) :
    keys.1.scheme = id ∧ PublicKey.new id keys.1.bytes = .ok keys.1 ∧
      PrivateKey.new id keys.2.bytes = .ok keys.2 := by
  simp only [keygen, PublicKey.new, PrivateKey.new, newKey, bind_eq_ok,
    pure_eq_ok] at h ⊢
  obtain ⟨publicKey, ⟨checked, hpublic, rfl⟩, privateKey,
    ⟨checked', hprivate, rfl⟩, rfl⟩ := h
  exact ⟨rfl, ⟨_, hpublic, rfl⟩, ⟨_, hprivate, rfl⟩⟩

omit [PqCrypto] [KeypairJson] in
theorem parsedScheme_schemeName {id : SignatureSchemeId}
    (hknown : ∀ value, id ≠ .unknown value) :
    parsedScheme (schemeName id) = .ok id := by
  cases id with
  | dilithium2 => rfl
  | falcon512 => rfl
  | unknown value => exact absurd rfl (hknown value)

theorem loadKeypair_eq_ok {text : KeypairJson.Text} {id : SignatureSchemeId}
    {keys : PublicKey × PrivateKey} :
    loadKeypairFromJson text id = .ok keys ↔
      ∃ parsed publicBytes privateBytes,
        KeypairJson.fromStr text = .ok parsed ∧
        parsedScheme parsed.scheme = .ok id ∧
        fromHex parsed.publicKeyHex = .ok publicBytes ∧
        PublicKey.new id publicBytes = .ok keys.1 ∧
        fromHex parsed.privateKeyHex = .ok privateBytes ∧
        PrivateKey.new id privateBytes = .ok keys.2 := by
  simp only [loadKeypairFromJson, bind_eq_ok]
  constructor
  · rintro ⟨parsed, hparsed, scheme, hscheme, hkeys⟩
    split at hkeys
    · cases hkeys
    · rename_i hsame
      rw [ne_eq, not_not] at hsame
      subst hsame
      simp only [bind_eq_ok, mapError_eq_ok, pure_eq_ok] at hkeys
      obtain ⟨publicBytes, hpublic, publicKey, hpublicKey, privateBytes,
        hprivate, privateKey, hprivateKey, rfl⟩ := hkeys
      exact ⟨parsed, publicBytes, privateBytes, hparsed, hscheme, hpublic,
        hpublicKey, hprivate, hprivateKey⟩
  · rintro ⟨parsed, publicBytes, privateBytes, hparsed, hscheme, hpublic,
      hpublicKey, hprivate, hprivateKey⟩
    refine ⟨parsed, hparsed, id, hscheme, ?_⟩
    rw [if_neg (not_not.mpr rfl)]
    simp only [bind_eq_ok, mapError_eq_ok, pure_eq_ok]
    exact ⟨publicBytes, hpublic, keys.1, hpublicKey, privateBytes, hprivate,
      keys.2, hprivateKey, rfl⟩

/-- The saved text of generated keys is loaded as these keys. -/
theorem loadKeypair_of_saved {id : SignatureSchemeId}
    (hknown : ∀ value, id ≠ .unknown value) {drawn : Bytes × Bytes}
    {keys : PublicKey × PrivateKey} (hkeys : keygen id drawn = .ok keys)
    {text : KeypairJson.Text} (hread : KeypairJson.fromStr text = .ok {
      scheme := schemeName keys.1.scheme
      publicKeyHex := toHex keys.1.bytes
      privateKeyHex := toHex keys.2.bytes }) :
    loadKeypairFromJson text id = .ok keys := by
  obtain ⟨hscheme, hpublic, hprivate⟩ := keygen_spec hkeys
  rw [hscheme] at hread
  exact loadKeypair_eq_ok.mpr ⟨_, keys.1.bytes, keys.2.bytes, hread,
    parsedScheme_schemeName hknown, fromHex_toHex _, hpublic, fromHex_toHex _,
    hprivate⟩

omit [KeypairJson] in
theorem newKey_scheme {id : SignatureSchemeId} {bytes : Bytes}
    {publicKey : PublicKey} {privateBytes : Bytes} {privateKey : PrivateKey}
    (hpublic : PublicKey.new id bytes = .ok publicKey)
    (hprivate : PrivateKey.new id privateBytes = .ok privateKey) :
    publicKey.scheme = id ∧ privateKey.scheme = id := by
  simp only [PublicKey.new, PrivateKey.new, newKey, bind_eq_ok,
    pure_eq_ok] at hpublic hprivate
  obtain ⟨-, -, rfl⟩ := hpublic
  obtain ⟨-, -, rfl⟩ := hprivate
  exact ⟨rfl, rfl⟩

omit [KeypairJson] in
theorem registered_of_parsedScheme {name : String} {id : SignatureSchemeId}
    (h : parsedScheme name = .ok id) : (defaultRegistry id).isSome := by
  rw [parsedScheme] at h
  split at h
  · rw [← Except.ok.inj h]
    rfl
  · split at h
    · rw [← Except.ok.inj h]
      rfl
    · cases h

end Files

/-! ## How a start ends -/

section Endings

variable [KeypairJson] {fs : KeyFileSystem} {path : FilePath}
  {contents : KeypairJson.Text} {disk : Disk FilePath KeypairJson.Text}

namespace KeyFile

theorem createParentDir_attempts :
    Attempts (createParentDir fs path) [.createDirs path] := by
  rw [createParentDir]
  split
  · intro disk
    exact Ends.pure_iff.mpr rfl
  · exact Attempts.perform fs _

theorem syncParentDir_attempts :
    Attempts (syncParentDir fs path) [.syncDir path] := by
  rw [syncParentDir]
  split
  · intro disk
    exact Ends.fail_iff.mpr
      ⟨[], .failed (List.nil_append _) fun _ => rfl⟩
  · exact Attempts.perform fs _

/-- The call is an attempt to replace the file. -/
theorem writeFileAtomically_attempts (hname : path.fileName ≠ none) :
    Attempts (writeFileAtomically fs path contents)
      (atomicWrite path.temp path KeypairJson.emptyText contents) := by
  rw [writeFileAtomically, if_neg hname]
  exact createParentDir_attempts.bind <| (Attempts.perform fs _).bind <|
    (Attempts.perform fs _).bind <| (Attempts.perform fs _).bind <|
    (Attempts.perform fs _).bind syncParentDir_attempts

/-- However the call ends, a reader finds the old file or all of the new
one. -/
theorem writeFileAtomically_ends :
    Ends (writeFileAtomically fs path contents)
      (fun _ after => path ≠ path.temp ∧ after = DiskOp.runAll disk
        (atomicWrite path.temp path KeypairJson.emptyText contents))
      (fun _ after => (after path).visible = (disk path).visible ∨
        (after path).visible = some contents) disk := by
  by_cases hname : path.fileName = none
  · rw [writeFileAtomically, if_pos hname, Ends.bind_iff]
    refine (createParentDir_attempts disk).mono ?_ ?_
    · intro _ after hafter
      rw [hafter]
      exact Ends.fail_iff.mpr (.inl rfl)
    · rintro err after ⟨done, h⟩
      cases h with
      | @failed done rest op after err stopped fails =>
          obtain ⟨rfl, hop⟩ | ⟨first, rfl, hdone⟩ :=
            List.append_eq_cons_iff.mp stopped
          · obtain ⟨rfl, -⟩ := List.cons.inj hop
            exact .inl (fails path)
          · simp at hdone
  · have hne := FilePath.ne_temp hname
    refine (writeFileAtomically_attempts hname disk).mono ?_ ?_
    · intro _ after hafter
      exact ⟨hne, hafter⟩
    · rintro err after ⟨done, h⟩
      obtain ⟨hnew, hold⟩ := h.visible_replaced hne
      by_cases hrename : .rename path.temp path ∈ done
      · exact .inr (hnew hrename)
      · exact .inl (hold hrename)

/-- For a bare file name the call always fails, at the latest after the
rename. -/
theorem writeFileAtomically_bare (hbare : path.directory = "") :
    Ends (writeFileAtomically fs path contents) (fun _ _ => False)
      (fun _ _ => True) disk := by
  rw [writeFileAtomically, Ends.bind_iff, createParentDir, if_pos hbare,
    Ends.pure_iff]
  split
  · exact Ends.fail_iff.mpr trivial
  · rw [syncParentDir, if_pos hbare]
    exact fs.survives_perform.bind_ends fun _ _ =>
      fs.survives_perform.bind_ends fun _ _ =>
      fs.survives_perform.bind_ends fun _ _ =>
      fs.survives_perform.bind_ends fun _ _ => Ends.fail_iff.mpr trivial

end KeyFile

/-- What is put in place is the encoded key pair. -/
theorem saveKeypairToJson_ends {publicKey : PublicKey}
    {privateKey : PrivateKey} {output : KeypairOutput}
    (houtput : output = {
      scheme := schemeName publicKey.scheme
      publicKeyHex := toHex publicKey.bytes
      privateKeyHex := toHex privateKey.bytes }) :
    Ends (saveKeypairToJson fs path publicKey privateKey)
      (fun _ after => path ≠ path.temp ∧ ∃ text,
        KeypairJson.toStringPretty output = .ok text ∧
        after = DiskOp.runAll disk
          (atomicWrite path.temp path KeypairJson.emptyText text))
      (fun _ after => (after path).visible = (disk path).visible ∨
        ∃ text, KeypairJson.toStringPretty output = .ok text ∧
          (after path).visible = some text) disk := by
  rw [saveKeypairToJson, ← houtput, Ends.bind_iff, Ends.ofExcept_iff]
  refine ⟨fun text htext => ?_, fun _ _ => .inl rfl⟩
  refine KeyFile.writeFileAtomically_ends.mono ?_ ?_
  · rintro - after ⟨hne, hafter⟩
    exact ⟨hne, text, htext, hafter⟩
  · rintro err after (hold | hnew)
    · exact .inl hold
    · exact .inr ⟨text, htext, hnew⟩

variable [PqCrypto] {expectedScheme : SignatureSchemeId}
  {registry : PqSchemeRegistry} {drawn : Bytes × Bytes}

/-- A start which finds no file either puts a file in place which is loaded as
its keys, or it fails; then a reader finds no file still, or such a file. -/
theorem loadOrCreate_notFound (hjson : KeypairJson.RoundTrips) :
    Ends (loadOrCreateKeypairFromJson fs path expectedScheme defaultRegistry
        .notFound drawn)
      (fun keys after => path ≠ path.temp ∧ ∃ text,
        after = DiskOp.runAll disk
          (atomicWrite path.temp path KeypairJson.emptyText text) ∧
        loadKeypairFromJson text expectedScheme = .ok keys)
      (fun _ after => (after path).visible = (disk path).visible ∨
        ∃ text keys, (after path).visible = some text ∧
          loadKeypairFromJson text expectedScheme = .ok keys) disk := by
  rw [loadOrCreateKeypairFromJson]
  split
  · exact Ends.fail_iff.mpr (.inl rfl)
  · rename_i sigScheme hscheme
    obtain ⟨m, rfl⟩ :=
      PqSchemeRegistry.inMemory_defaultRegistry.scheme_eq hscheme
    have hknown : ∀ value, expectedScheme ≠ .unknown value := by
      rintro value rfl
      cases hscheme
    rw [Ends.bind_iff, Ends.ofExcept_iff]
    refine ⟨fun keys hkeys => ?_, fun _ _ => .inl rfl⟩
    rw [mapError_eq_ok] at hkeys
    rw [Ends.bind_iff]
    refine (saveKeypairToJson_ends rfl).mono ?_ ?_
    · rintro - after ⟨hne, text, htext, hafter⟩
      exact Ends.pure_iff.mpr ⟨hne, text, hafter,
        loadKeypair_of_saved hknown hkeys (hjson htext)⟩
    · rintro err after (hold | ⟨text, htext, hnew⟩)
      · exact .inl hold
      · exact .inr ⟨text, keys, hnew,
          loadKeypair_of_saved hknown hkeys (hjson htext)⟩

/-- A start which finds a file touches nothing. -/
theorem loadOrCreate_contents (text : KeypairJson.Text) :
    (loadOrCreateKeypairFromJson fs path expectedScheme registry
        (.contents text) drawn).exec disk =
      ((loadKeypairFromJson text expectedScheme).mapError Abort.err, disk) :=
  rfl

/-- The keys of a start are of a scheme which the node can sign with. -/
theorem loadOrCreate_registered {file : FileRead KeypairJson.Text} :
    Ends (loadOrCreateKeypairFromJson fs path expectedScheme defaultRegistry
        file drawn)
      (fun keys _ => (defaultRegistry keys.1.scheme).isSome)
      (fun _ _ => True) disk := by
  cases file with
  | notFound =>
      rw [loadOrCreateKeypairFromJson]
      split
      · exact Ends.fail_iff.mpr trivial
      · rename_i sigScheme hscheme
        obtain ⟨m, rfl⟩ :=
          PqSchemeRegistry.inMemory_defaultRegistry.scheme_eq hscheme
        rw [Ends.bind_iff, Ends.ofExcept_iff]
        refine ⟨fun keys hkeys => ?_, fun _ _ => trivial⟩
        have hid := (keygen_spec (mapError_eq_ok.mp hkeys)).1
        have hregistered : (defaultRegistry keys.1.scheme).isSome := by
          rw [hid]
          exact Option.isSome_of_eq_some hscheme
        rw [Ends.bind_iff]
        exact (saveKeypairToJson_ends rfl).mono
          (fun _ _ _ => Ends.pure_iff.mpr hregistered) fun _ _ _ => trivial
  | openFailed err => exact Ends.fail_iff.mpr trivial
  | readFailed err => exact Ends.fail_iff.mpr trivial
  | contents text =>
      refine Ends.ofExcept_iff.mpr ⟨fun keys hload => ?_, fun _ _ => trivial⟩
      obtain ⟨parsed, _, _, -, hscheme, -, hpublic, -, hprivate⟩ :=
        loadKeypair_eq_ok.mp hload
      rw [(newKey_scheme hpublic hprivate).1]
      exact registered_of_parsedScheme hscheme

/-- A node with a bare file name for its keys cannot start without a file. -/
theorem loadOrCreate_bare (hbare : path.directory = "") :
    Ends (loadOrCreateKeypairFromJson fs path expectedScheme registry
      .notFound drawn) (fun _ _ => False) (fun _ _ => True) disk := by
  rw [loadOrCreateKeypairFromJson]
  split
  · exact Ends.fail_iff.mpr trivial
  · rw [Ends.bind_iff, Ends.ofExcept_iff]
    refine ⟨fun keys _ => ?_, fun _ _ => trivial⟩
    rw [Ends.bind_iff, saveKeypairToJson, Ends.bind_iff, Ends.ofExcept_iff]
    refine ⟨fun text _ => ?_, fun _ _ => trivial⟩
    exact (KeyFile.writeFileAtomically_bare hbare).mono
      (fun _ _ h => h.elim) fun _ _ h => h

end Endings

/-! ## Starts, failures and crashes -/

section Starts

variable [PqCrypto] [KeypairJson]

/-- What the path of a file gives when nothing goes wrong. -/
def keyFile (file : FileState KeypairJson.Text) : FileRead KeypairJson.Text :=
  match file.visible with
  | none => .notFound
  | some text => .contents text

theorem keyFile_of_visible {file : FileState KeypairJson.Text}
    {text : KeypairJson.Text} (h : file.visible = some text) :
    keyFile file = .contents text := by
  rw [keyFile, h]

/-- What the path of a file may give.  That a file is there is always seen. -/
inductive KeyFileRead (file : FileState KeypairJson.Text) :
    FileRead KeypairJson.Text → Prop where
  | found : KeyFileRead file (keyFile file)
  | openFailed {err : String} (there : file.visible ≠ none) :
      KeyFileRead file (.openFailed err)
  | readFailed {err : String} (there : file.visible ≠ none) :
      KeyFileRead file (.readFailed err)

/-- A start which returned keys, and the key file as it found it. -/
structure KeyStart where
  found : FileState KeypairJson.Text
  keys : PublicKey × PrivateKey

/-- If there was a file, it had reached the disk. -/
def KeyStart.FoundOnDisk (start : KeyStart) : Prop :=
  ∀ text, start.found.visible = some text →
    start.found = FileState.settled (some text)

/-- The disk, and the starts which returned keys, last ones first. -/
structure IdentityWorld where
  disk : Disk FilePath KeypairJson.Text
  starts : List KeyStart

/-- One event of a machine on which a node starts again and again. -/
inductive IdentityStep (path : FilePath)
    (expectedScheme : SignatureSchemeId) :
    IdentityWorld → IdentityWorld → Prop where
  | returned {world : IdentityWorld} (fs : KeyFileSystem)
      {file : FileRead KeypairJson.Text} (drawn : Bytes × Bytes)
      {keys : PublicKey × PrivateKey}
      {after : Disk FilePath KeypairJson.Text}
      (read : KeyFileRead (world.disk path) file)
      (start : (loadOrCreateKeypairFromJson fs path expectedScheme
        defaultRegistry file drawn).exec world.disk = (.ok keys, after)) :
      IdentityStep path expectedScheme world
        ⟨after, ⟨world.disk path, keys⟩ :: world.starts⟩
  /-- A start returns an error, or its process is killed: during a file
  operation, which may then be cut short, or after the last one. -/
  | stopped {world : IdentityWorld} (fs : KeyFileSystem)
      {file : FileRead KeypairJson.Text} (drawn : Bytes × Bytes)
      (read : KeyFileRead (world.disk path) file) :
      IdentityStep path expectedScheme world
        ⟨(loadOrCreateKeypairFromJson fs path expectedScheme defaultRegistry
          file drawn).after world.disk, world.starts⟩
  /-- The machine crashes, with or without a start which this kills. -/
  | crashed {world : IdentityWorld}
      {after : Disk FilePath KeypairJson.Text}
      (left : world.disk.CrashesTo after) :
      IdentityStep path expectedScheme world ⟨after, world.starts⟩
  /-- Other files change, or the system writes the key file back. -/
  | elsewhere {world : IdentityWorld}
      {after : Disk FilePath KeypairJson.Text}
      (same : after path = world.disk path ∨
        after path = FileState.settled (world.disk path).visible) :
      IdentityStep path expectedScheme world ⟨after, world.starts⟩

/-- The keys of every start are those in the key file, which is on the
disk. -/
def IdentityInv (path : FilePath) (expectedScheme : SignatureSchemeId)
    (world : IdentityWorld) : Prop :=
  ∀ start ∈ world.starts, ∃ text,
    world.disk path = FileState.settled (some text) ∧
      loadKeypairFromJson text expectedScheme = .ok start.keys

variable {path : FilePath} {expectedScheme : SignatureSchemeId}
  {fs : KeyFileSystem} {drawn : Bytes × Bytes}
  {keys : PublicKey × PrivateKey} {file : FileRead KeypairJson.Text}
  {disk diskAfter : Disk FilePath KeypairJson.Text}

/-- A start which finds a file leaves the disk as it is, whether it can read
the file or not. -/
theorem loadOrCreate_after_of_found {text : KeypairJson.Text}
    (hvisible : (disk path).visible = some text)
    (hread : KeyFileRead (disk path) file) :
    (loadOrCreateKeypairFromJson fs path expectedScheme defaultRegistry file
      drawn).after disk = disk := by
  cases hread with
  | found =>
      rw [keyFile_of_visible hvisible, Stateful.after, loadOrCreate_contents]
  | openFailed there => rfl
  | readFailed there => rfl

/-- A start which returns keys leaves them in a file on the disk, unless it
found a file which was not there. -/
theorem loadOrCreate_settled (hjson : KeypairJson.RoundTrips)
    (hread : KeyFileRead (disk path) file)
    (hstart : (loadOrCreateKeypairFromJson fs path expectedScheme
      defaultRegistry file drawn).exec disk = (.ok keys, diskAfter))
    (hfound : KeyStart.FoundOnDisk ⟨disk path, keys⟩) :
    ∃ text, diskAfter path = FileState.settled (some text) ∧
      loadKeypairFromJson text expectedScheme = .ok keys := by
  cases hread with
  | found =>
      cases hvisible : (disk path).visible with
      | none =>
          rw [keyFile, hvisible] at hstart
          obtain ⟨hne, text, rfl, hload⟩ :=
            (loadOrCreate_notFound hjson).of_exec_ok hstart
          exact ⟨text, atomicWrite_complete hne _, hload⟩
      | some text =>
          rw [keyFile_of_visible hvisible, loadOrCreate_contents] at hstart
          obtain ⟨hload, rfl⟩ := Prod.mk.inj hstart
          exact ⟨text, hfound text hvisible, mapError_eq_ok.mp hload⟩
  | openFailed there => cases (Prod.mk.inj hstart).1
  | readFailed there => cases (Prod.mk.inj hstart).1

namespace IdentityInv

variable {world after : IdentityWorld}

theorem step (hjson : KeypairJson.RoundTrips)
    (h : IdentityInv path expectedScheme world)
    (hstep : IdentityStep path expectedScheme world after)
    (hfound : ∀ start ∈ after.starts, start.FoundOnDisk) :
    IdentityInv path expectedScheme after := by
  intro start hstart
  cases hstep with
  | @returned fs file drawn keys after read returned =>
      obtain ⟨text, hafter, hload⟩ := loadOrCreate_settled hjson read
        returned (hfound _ List.mem_cons_self)
      rcases List.mem_cons.mp hstart with rfl | hstart
      · exact ⟨text, hafter, hload⟩
      · obtain ⟨held, hheld, hloadHeld⟩ := h start hstart
        have hsame : after = world.disk := by
          rw [← loadOrCreate_after_of_found
            (congrArg FileState.visible hheld) read, Stateful.after, returned]
        exact ⟨held, hsame ▸ hheld, hloadHeld⟩
  | stopped fs drawn read =>
      obtain ⟨text, htext, hload⟩ := h start hstart
      refine ⟨text, ?_, hload⟩
      rw [loadOrCreate_after_of_found (congrArg FileState.visible htext) read]
      exact htext
  | crashed left =>
      obtain ⟨text, htext, hload⟩ := h start hstart
      obtain ⟨contents, hcontents, hafter⟩ := left path
      rw [htext, FileState.afterCrash_settled,
        Set.mem_singleton_iff] at hcontents
      exact ⟨text, hcontents ▸ hafter, hload⟩
  | elsewhere same =>
      obtain ⟨text, htext, hload⟩ := h start hstart
      rw [htext, FileState.settled_visible, or_self] at same
      exact ⟨text, same, hload⟩

omit [PqCrypto] in
theorem starts_subset [PqCrypto]
    (hstep : IdentityStep path expectedScheme world after) :
    world.starts ⊆ after.starts := by
  cases hstep with
  | returned => exact List.subset_cons_self _ _
  | _ => exact List.Subset.refl _

theorem run (hjson : KeypairJson.RoundTrips)
    (h : IdentityInv path expectedScheme world)
    (hrun : ReflTransGen (IdentityStep path expectedScheme) world after)
    (hfound : ∀ start ∈ after.starts, start.FoundOnDisk) :
    IdentityInv path expectedScheme after := by
  induction hrun with
  | refl => exact h
  | tail _ hstep ih =>
      have hbefore := ih fun start hstart =>
        hfound start (starts_subset hstep hstart)
      exact hbefore.step hjson hstep hfound

end IdentityInv

/-- A node keeps its identity.  Whatever starts fail or are killed, and
whatever crashes of the machine come in between, if every key file which a
start with keys found had reached the disk, all these starts returned the same
ones, from which an engine can be built, and a later start which can read the
file returns them and leaves the disk as it is. -/
theorem identity_persists (hjson : KeypairJson.RoundTrips)
    {first world : IdentityWorld} (hnew : first.starts = [])
    (hrun : ReflTransGen (IdentityStep path expectedScheme) first world)
    (hfound : ∀ start ∈ world.starts, start.FoundOnDisk)
    {start : KeyStart} (hstart : start ∈ world.starts) :
    (∀ other ∈ world.starts, other.keys = start.keys) ∧
      (∀ fs drawn, (loadOrCreateKeypairFromJson fs path expectedScheme
        defaultRegistry (keyFile (world.disk path)) drawn).exec world.disk =
          (.ok start.keys, world.disk)) ∧
      ∀ validators, ∃ consensus, DummyConsensusEngine.fromKeys
        defaultRegistry start.keys.1 start.keys.2 validators =
          .ok consensus := by
  have hfirst : IdentityInv path expectedScheme first := by
    intro other hother
    rw [hnew] at hother
    exact absurd hother List.not_mem_nil
  have hinv := hfirst.run hjson hrun hfound
  obtain ⟨text, htext, hload⟩ := hinv start hstart
  refine ⟨fun other hother => ?_, fun fs drawn => ?_, fun validators => ?_⟩
  · obtain ⟨otherText, hotherText, hother⟩ := hinv other hother
    rw [htext] at hotherText
    obtain rfl := Option.some.inj (congrArg FileState.visible hotherText)
    exact Except.ok.inj (hother.symm.trans hload)
  · rw [keyFile_of_visible (congrArg FileState.visible htext),
      loadOrCreate_contents, hload]
    rfl
  · obtain ⟨_, _, _, -, -, -, hpublic, -, hprivate⟩ :=
      loadKeypair_eq_ok.mp hload
    obtain ⟨hscheme, hscheme'⟩ := newKey_scheme hpublic hprivate
    exact ⟨_, fromKeys_eq_ok.mpr ⟨hscheme.trans hscheme'.symm, rfl⟩⟩

end Starts

/-! ## Starts which fail after the rename -/

section Unsynced

local instance identityModules : PqCrypto := oneByteModules

local instance plainKeypairJson : KeypairJson where
  Text := Option KeypairOutput
  emptyText := none
  toStringPretty output := .ok (some output)
  fromStr text := (text.map Except.ok).getD (.error "EOF while parsing")

theorem plainKeypairJson_roundTrips : KeypairJson.RoundTrips := by
  rintro output _ ⟨⟩
  rfl

def noKeys : IdentityWorld := ⟨fun _ => FileState.settled none, []⟩

def drawnKeys (n m : UInt8) : PublicKey × PrivateKey :=
  (⟨.dilithium2, [n]⟩, ⟨.dilithium2, [m]⟩)

def drawnOutput (n m : UInt8) : KeypairOutput :=
  ⟨"dilithium2", toHex [n], toHex [m]⟩

/-- The disk on which the key file has been renamed but not synced. -/
def unsyncedDisk (path : FilePath) (n m : UInt8) :
    Disk FilePath KeypairJson.Text :=
  DiskOp.runAll noKeys.disk (writeTemp path.temp path KeypairJson.emptyText
    (some (drawnOutput n m)) ++ [.rename path.temp path])

/-- A crash may take the renamed file back. -/
theorem unsyncedDisk_crashesTo {path : FilePath} (hne : path ≠ path.temp)
    (n m : UInt8) : (unsyncedDisk path n m).CrashesTo noKeys.disk := by
  intro other
  refine ⟨none, ?_, rfl⟩
  by_cases hpath : other = path
  · rw [hpath, unsyncedDisk, atomicWrite_renamed hne]
    exact .inr (FileState.afterCrash_settled none ▸ Set.mem_singleton none)
  · by_cases htemp : other = path.temp
    · rw [htemp, unsyncedDisk, DiskOp.runAll_append, DiskOp.runAll_cons,
        DiskOp.runAll_nil, DiskOp.run, Function.update_of_ne (Ne.symm hne),
        Function.update_self]
      exact .inr (Set.mem_univ _)
    · rw [unsyncedDisk, atomicWrite_frame (List.prefix_append _ _) htemp hpath]
      exact FileState.afterCrash_settled none ▸ Set.mem_singleton none

/-- No directory can be synced. -/
def failingSync : KeyFileSystem where
  failure disk op :=
    match op with
    | .syncDir _ => some ("Input/output error (os error 5)", disk)
    | _ => none
  leaves {disk after op err} h := by
    cases op with
    | syncDir path =>
        obtain ⟨-, rfl⟩ := Prod.mk.inj (Option.some.inj h)
        exact fun _ => rfl
    | _ => cases h

def keyPath : FilePath := ⟨"data/", some "node-key.json"⟩

/-- The first start fails and a crash takes its file back; the keys of the
second one stay. -/
theorem secondStart_identity_persists :
    ∃ world, ReflTransGen (IdentityStep keyPath .dilithium2) noKeys world ∧
      ∀ fs drawn, (loadOrCreateKeypairFromJson fs keyPath .dilithium2
        defaultRegistry (keyFile (world.disk keyPath)) drawn).exec
          world.disk = (.ok (drawnKeys 3 4), world.disk) := by
  have hfailed : IdentityStep keyPath .dilithium2 noKeys
      ⟨unsyncedDisk keyPath 1 2, []⟩ :=
    .stopped failingSync ([1], [2]) .found
  have hcrashed : IdentityStep keyPath .dilithium2
      ⟨unsyncedDisk keyPath 1 2, []⟩ noKeys :=
    .crashed (unsyncedDisk_crashesTo (by decide) 1 2)
  have hreturned : IdentityStep keyPath .dilithium2 noKeys
      ⟨DiskOp.runAll noKeys.disk (atomicWrite keyPath.temp keyPath
          KeypairJson.emptyText (some (drawnOutput 3 4))),
        [⟨FileState.settled none, drawnKeys 3 4⟩]⟩ :=
    .returned FileSystem.reliable ([3], [4]) .found rfl
  have hrun := ((ReflTransGen.single hfailed).tail hcrashed).tail hreturned
  refine ⟨_, hrun, (identity_persists plainKeypairJson_roundTrips rfl hrun
    ?_ List.mem_cons_self).2.1⟩
  intro start hstart text hvisible
  rw [List.mem_singleton.mp hstart] at hvisible
  cases hvisible

def barePath : FilePath := ⟨"", some "node-key.json"⟩

/-- With a bare file name a start finds the file which a failed start has left
behind.  The file is lost in a crash, and the next keys are different ones. -/
theorem bareName_changes_identity :
    ∃ world, ReflTransGen (IdentityStep barePath .dilithium2) noKeys world ∧
      world.starts.map KeyStart.keys = [drawnKeys 3 4, drawnKeys 1 2] := by
  have hfails : ∀ n m starts, IdentityStep barePath .dilithium2
      ⟨noKeys.disk, starts⟩ ⟨unsyncedDisk barePath n m, starts⟩ :=
    fun n m _ => .stopped FileSystem.reliable ([n], [m]) .found
  have hfinds : ∀ n m starts, IdentityStep barePath .dilithium2
      ⟨unsyncedDisk barePath n m, starts⟩
      ⟨unsyncedDisk barePath n m,
        ⟨unsyncedDisk barePath n m barePath, drawnKeys n m⟩ :: starts⟩ := by
    intro n m starts
    have hkeys : keygen .dilithium2 ([n], [m]) = .ok (drawnKeys n m) := rfl
    have hload : loadKeypairFromJson (some (drawnOutput n m)) .dilithium2 =
        .ok (drawnKeys n m) :=
      loadKeypair_of_saved (fun _ => SignatureSchemeId.noConfusion) hkeys rfl
    exact .returned FileSystem.reliable ([], []) .found
      (Prod.ext (mapError_eq_ok.mpr hload) rfl)
  have hcrashes : ∀ starts, IdentityStep barePath .dilithium2
      ⟨unsyncedDisk barePath 1 2, starts⟩ ⟨noKeys.disk, starts⟩ :=
    fun _ => .crashed (unsyncedDisk_crashesTo (by decide) 1 2)
  have hrun := ((((ReflTransGen.single (hfails 1 2 [])).tail
    (hfinds 1 2 _)).tail (hcrashes _)).tail (hfails 3 4 _)).tail
      (hfinds 3 4 _)
  exact ⟨_, hrun, rfl⟩

end Unsynced

end QCoin
