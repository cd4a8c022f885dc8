import KgaGateway.Deps
import KgaGateway.Lib.FileSystem
import KgaGateway.Lib.JsonRoundTrip

/-!
# The token store

`app/example/token_store.py`: `FileTokenStore.save` writes the token to a new
temporary file in the directory, syncs it and renames it over the target;
`FileTokenStore.load` opens the target and reads it to its end.

Any number of calls run at the same time, in any number of processes. A step is
one file-system operation of one call, a failure of the operation a call is
about to do, the end of a call's process, or something the file system does on
its own. `TokenStore.step` is executable; a run is a list of events.
-/

namespace KgaGateway

/-! ## Tokens and their text -/

/-- A token: a JSON object. -/
structure Token : Type where
  members : List (String × Json)
  distinct : (Json.obj members).DistinctKeys

/-- A token with a refresh token only. -/
def Token.ofRefresh (value : String) : Token where
  members := [("refresh_token", .str value)]
  distinct := by simp [Json.DistinctKeys, Json.DistinctKeys.members]

/-- `json.dump(token, fh)`. -/
def serialise (token : Token) : List Char := JsonText.dump (.obj token.members)

/-- The exception of `json.load` on a text that is no JSON. -/
inductive LoadError : Type where
  | jsonDecodeError : LoadError
  deriving DecidableEq

/-- What `load` ends with: `None`, or what the file holds. -/
abbrev LoadResult : Type := Except LoadError (Option Json)

/-- `json.load` on what was read. -/
def parseContent (reader : FloatReader) (content : List Char) : LoadResult :=
  match JsonText.load reader content with
  | some j => .ok (some j)
  | none => .error .jsonDecodeError

/-- What `save` wrote out in full, `load` reads. -/
theorem parseContent_serialise (reader : FloatReader) (token : Token) :
    parseContent reader (serialise token) = .ok (some (.obj token.members)) := by
  simp only [parseContent, serialise, JsonText.load_dump token.distinct]

/-- What is shared by the calls: the file name of the path, the float reader of
the JSON module, and the token of every `save`. -/
structure TokenStore : Type where
  name : String
  reader : FloatReader
  token : ℕ → Token

/-- The store whose saves all write this token. -/
def TokenStore.ofToken (name : String) (token : Token) : TokenStore :=
  ⟨name, .ofRepr, fun _ => token⟩

/-! ## Saving -/

/-- Where a `save` is. The locals are the name of the temporary file, the file
behind its descriptor, and the text still to be written. -/
inductive SavePc : Type where
  | idle : SavePc
  /-- the parent directories exist -/
  | made : SavePc
  /-- the temporary file exists -/
  | opened : String → ℕ → SavePc
  /-- inside `json.dump` -/
  | writing : String → ℕ → List Char → SavePc
  | flushed : String → ℕ → SavePc
  | synced : String → ℕ → SavePc
  | closed : String → ℕ → SavePc
  /-- an exception leaves the `with` block, which closes the file and may
  write out what was buffered -/
  | unwinding : String → ℕ → List Char → SavePc
  /-- in the `except` clause, about to unlink -/
  | cleanup : String → ℕ → SavePc
  /-- it returned; the file is the one it moved to the target -/
  | returned : ℕ → SavePc
  | raised : SavePc
  /-- its process is gone -/
  | killed : SavePc
  deriving DecidableEq

/-- What a `save` can do next. -/
inductive SaveOp : Type where
  | mkdir : SaveOp
  /-- with the characters `mkstemp` chose -/
  | mkstemp : String → SaveOp
  | fdopen : SaveOp
  /-- a chunk of this length reaches the file -/
  | write : ℕ → SaveOp
  | flush : SaveOp
  | fsync : SaveOp
  | close : SaveOp
  | replace : SaveOp
  | unlink : SaveOp
  /-- the operation it is about to do raises -/
  | fail : SaveOp
  | kill : SaveOp
  deriving DecidableEq

/-- The name `mkstemp` makes of the prefix, its characters and the suffix. -/
def tempName (name random : String) : String := name ++ random ++ ".tmp"

/-- The temporary name is longer than the target's. -/
theorem tempName_ne (name random : String) : tempName name random ≠ name := by
  intro h
  have hlen := congrArg (fun s : String => s.toList.length) h
  simp [tempName] at hlen

/-- Where an exception takes a `save`. -/
def SavePc.fail : SavePc → Option SavePc
  | .idle => some .raised
  | .made => some .raised
  | .opened tmp ino => some (.cleanup tmp ino)
  | .writing tmp ino rest => some (.unwinding tmp ino rest)
  | .flushed tmp ino => some (.unwinding tmp ino [])
  | .synced tmp ino => some (.cleanup tmp ino)
  | .closed tmp ino => some (.cleanup tmp ino)
  | .unwinding tmp ino _ => some (.cleanup tmp ino)
  | .cleanup _ _ => some .raised
  | _ => none

/-- Is it over? -/
def SavePc.ended : SavePc → Bool
  | .returned _ | .raised | .killed => true
  | _ => false

/-- `FileTokenStore.save`, operation by operation. -/
def TokenStore.saveStep (store : TokenStore) (token : Token) (disk : Disk String Char) :
    SavePc → SaveOp → Option (Disk String Char × SavePc)
  | .idle, .mkdir => some (disk.mkdir, .made)
  | .made, .mkstemp random =>
    -- exclusive creation: the name must be free
    if disk.isDir && (disk.entries (tempName store.name random)).isNone then
      some (disk.create (tempName store.name random),
        .opened (tempName store.name random) disk.next)
    else none
  | .opened tmp ino, .fdopen => some (disk, .writing tmp ino (serialise token))
  | .writing tmp ino rest, .write n =>
    some (disk.append ino (rest.take n), .writing tmp ino (rest.drop n))
  | .writing tmp ino [], .flush => some (disk, .flushed tmp ino)
  | .flushed tmp ino, .fsync => some (disk.fsync ino, .synced tmp ino)
  | .synced tmp ino, .close => some (disk, .closed tmp ino)
  | .closed tmp _, .replace =>
    -- by name: whatever the temporary name is linked to is moved
    match disk.entries tmp with
    | some ino => some (disk.change (.rename tmp store.name ino), .returned ino)
    | none => none
  | .unwinding tmp ino rest, .write n =>
    some (disk.append ino (rest.take n), .unwinding tmp ino (rest.drop n))
  | .unwinding tmp ino _, .close => some (disk, .cleanup tmp ino)
  | .cleanup tmp _, .unlink =>
    -- a name that is gone is passed over
    match disk.entries tmp with
    | some _ => some (disk.change (.unlink tmp), .raised)
    | none => some (disk, .raised)
  | pc, .fail => pc.fail.map fun pc => (disk, pc)
  | pc, .kill => if pc.ended then none else some (disk, .killed)
  | _, _ => none

/-! ## Loading -/

/-- Where a `load` is: reading, it has an open file and what it read so far. -/
inductive LoadPc : Type where
  | idle : LoadPc
  | reading : ℕ → List Char → LoadPc
  | done : LoadResult → LoadPc
  | killed : LoadPc

/-- What it ended with, once it has. -/
def LoadPc.result : LoadPc → Option LoadResult
  | .done result => some result
  | _ => none

/-- What a `load` can do next. -/
inductive LoadOp : Type where
  | open : LoadOp
  /-- a read that returns this much, or less at the end of the file -/
  | read : ℕ → LoadOp
  /-- the read that finds the end of the file -/
  | eof : LoadOp
  | kill : LoadOp
  deriving DecidableEq

/-- `FileTokenStore.load`, operation by operation. -/
def TokenStore.loadStep (store : TokenStore) (disk : Disk String Char) :
    LoadPc → LoadOp → Option LoadPc
  | .idle, .open =>
    match if disk.isDir then disk.entries store.name else none with
    | none => some (.done (.ok none))
    | some ino => some (.reading ino [])
  | .reading ino seen, .read n =>
    some (.reading ino (seen ++ ((disk.data ino).drop seen.length).take n))
  | .reading ino seen, .eof =>
    -- `json.load` parses only when everything was read
    if (disk.data ino).length ≤ seen.length then some (.done (parseContent store.reader seen))
    else none
  | .idle, .kill => some .killed
  | .reading _ _, .kill => some .killed
  | _, _ => none

/-- A `load` that runs on its own, to the end. -/
def TokenStore.loadAlone (store : TokenStore) (disk : Disk String Char) : LoadResult :=
  match if disk.isDir then disk.entries store.name else none with
  | none => .ok none
  | some ino => parseContent store.reader (disk.data ino)

/-! ## The system -/

/-- The disk and every call, numbered. -/
structure Sys : Type where
  disk : Disk String Char
  saves : ℕ → SavePc
  loads : ℕ → LoadPc

/-- A step of the system. -/
inductive StoreEvent : Type where
  | save : ℕ → SaveOp → StoreEvent
  | load : ℕ → LoadOp → StoreEvent
  | writeback : ℕ → List Char → StoreEvent
  | commit : StoreEvent
  | commitDir : StoreEvent
  deriving DecidableEq

/-- One step; `none` if it is not possible. -/
def TokenStore.step (store : TokenStore) (s : Sys) : StoreEvent → Option Sys
  | .save id op =>
    (store.saveStep (store.token id) s.disk (s.saves id) op).map fun p =>
      { s with disk := p.1, saves := Function.update s.saves id p.2 }
  | .load id op =>
    (store.loadStep s.disk (s.loads id) op).map fun pc =>
      { s with loads := Function.update s.loads id pc }
  | .writeback ino content => some { s with disk := s.disk.writeback ino content }
  | .commit => some { s with disk := s.disk.commit }
  | .commitDir => some { s with disk := s.disk.commitDir }

/-- A run: the events one after the other. -/
def TokenStore.run (store : TokenStore) (s : Sys) (events : List StoreEvent) : Option Sys :=
  events.foldlM store.step s

theorem run_append_singleton {store : TokenStore} {s s' : Sys} {events : List StoreEvent}
    {e : StoreEvent} :
    store.run s (events ++ [e]) = some s' ↔
      ∃ m, store.run s events = some m ∧ store.step m e = some s' := by
  simp [TokenStore.run, Option.bind_eq_some_iff]

/-- A `save` that nothing interrupts: `mkstemp` chooses these characters, and
the file is written in one chunk of at most this length. -/
def saveAlone (id : ℕ) (random : String) (n : ℕ) : List StoreEvent :=
  [.save id .mkdir, .save id (.mkstemp random), .save id .fdopen, .save id (.write n),
    .save id .flush, .save id .fsync, .save id .close, .save id .replace]

/-! ## Where a run starts -/

/-- A disk at rest: every change is durable, and the target is either absent or
linked to a file that holds a token. What else is in the directory is free. -/
structure Start (name : String) : Type where
  disk : Disk String Char
  /-- the token stored at first, with its file -/
  stored : Option (ℕ × Token)
  entry : disk.entries name = stored.map Prod.fst
  content : ∀ p ∈ stored, disk.data p.1 = serialise p.2 ∧ disk.durableData p.1 = serialise p.2 ∧
    disk.synced p.1 = true
  isDir : stored.isSome → disk.isDir = true
  used : ∀ file ino, disk.entries file = some ino → ino < disk.next
  noLink : disk.isDir = false → ∀ file, disk.entries file = none
  durableDir : disk.durableDir = disk.isDir
  durableEntries : disk.durableEntries = disk.entries
  queue : disk.queue = []

/-- No call has begun. -/
def Start.sys {name : String} (start : Start name) : Sys :=
  ⟨start.disk, fun _ => .idle, fun _ => .idle⟩

/-- The token stored at first. -/
def Start.token {name : String} (start : Start name) : Option Token := start.stored.map Prod.snd

/-- A directory that is not there. -/
def Start.absent (name : String) : Start name where
  disk :=
    ⟨false, fun _ => none, fun _ => [], 0, false, fun _ => none, [], fun _ => [], fun _ => true⟩
  stored := none
  entry := rfl
  content := by rintro p ⟨⟩
  isDir := by rintro ⟨⟩
  used := by rintro file ino ⟨⟩
  noLink _ _ := rfl
  durableDir := rfl
  durableEntries := rfl
  queue := rfl

/-- A directory that holds a token at the target, and nothing else. -/
def Start.holding (name : String) (token : Token) : Start name where
  disk :=
    let entries := fun file => if file = name then some 0 else none
    ⟨true, entries, fun _ => serialise token, 1, true, entries, [], fun _ => serialise token,
      fun _ => true⟩
  stored := some (0, token)
  entry := if_pos rfl
  content := by
    rintro p ⟨⟩
    exact ⟨rfl, rfl, rfl⟩
  isDir _ := rfl
  used file ino h := by
    dsimp only at h
    split at h
    · cases h
      exact Nat.zero_lt_one
    · cases h
  noLink h := by cases h
  durableDir := rfl
  durableEntries := rfl
  queue := rfl

end KgaGateway
