import DeclCheck.Cache.Record
import DeclCheck.Digest
import DeclCheck.Files

/-!
# The cache

A cache is a directory with one entry for each content that was checked. The key of an entry is
made from the digest of the content and the version of the entries, so a file that was not changed
finds its entry wherever it lies.
-/
namespace DeclCheck

structure Cache where
  dir : Text
  deriving DecidableEq, Repr, Inhabited

inductive CacheAnswer where
  | miss
  | hit (record : CacheRecord)
  /-- There is an entry that cannot be read, for a reason in words. -/
  | unreadable (reason : Text)
  deriving Repr, Inhabited

namespace Cache

def key (digest : Text) : Text :=
  let v := CacheRecord.currentVersion
  Digest.sha256 (v.toUInt8 :: (v >>> 8).toUInt8 :: digest)

/-- Where the entry of a key lies. Keys with the same first byte share a directory. -/
def entryPath (c : Cache) (key : Text) : Text :=
  let name := Text.hex key
  Path.join [c.dir, "files", name.take 2, name ++ ".mp"]

/-- What the bytes of an entry tell. Entries of another version tell nothing. -/
def answerOf (bytes : Text) : CacheAnswer :=
  match CacheRecord.decode bytes with
  | .error fault => .unreadable fault.message
  | .ok record => if record.version = CacheRecord.currentVersion then .hit record else .miss

variable {m : Type → Type} [Monad m] [MonadFiles m]

/-- Opens the cache in a directory, which is made if it is not there. -/
def openAt (dir : Text) : m (Except FileError Cache) := do
  match ← Files.makeDirs dir with
  | .ok () => return .ok { dir }
  | .error e => return .error e

def openMessage (e : FileError) : Text := "disk cache: " ++ e.message

def get (c : Cache) (key : Text) : m CacheAnswer := do
  match ← Files.read (c.entryPath key) with
  | .ok bytes => return answerOf bytes
  | .error e => return if e.fault = .notFound then .miss else .unreadable e.message

/-- Stores an entry. It is written aside and moved into its place, so that no one reads a part
of it. -/
def put (c : Cache) (key : Text) (record : CacheRecord) : m (Except FileError Unit) := do
  let path := c.entryPath key
  let dir := Path.dir path
  match ← Files.makeDirs dir with
  | .error e => return .error e
  | .ok () =>
    let aside := Path.join [dir, "tmp-" ++ Path.base path]
    let bytes := CacheRecord.encode { record with version := CacheRecord.currentVersion }
    match ← Files.write aside bytes with
    | .error e => return .error e
    | .ok () =>
      let moved ← Files.move aside path
      if let .error _ := moved then
        let _ ← MonadFiles.removeAll (m := m) aside
      return moved

/-- Drops all entries. A cache whose directory is gone has none. -/
def drop (c : Cache) : m (Except FileError Unit) := do
  match ← MonadFiles.kindOf c.dir with
  | .error .notFound => return .ok ()
  | _ =>
    match ← Files.removeAll c.dir with
    | .error e => return .error e
    | .ok () => Files.makeDirs c.dir

end Cache

end DeclCheck
