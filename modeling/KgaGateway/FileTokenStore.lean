import KgaGateway.Lib.Program
import KgaGateway.Lib.PyJsonRoundTrip
import KgaGateway.Lib.PyVerbatim
import KgaGateway.TokenStore

/-!
# One save, from the call to its end

`app/example/token_store.py` once more: `FileTokenStore.save` and `load` as
programs, for any value the auth layer may hand over and with a failure
possible at every operation. Nothing else works on the directory meanwhile; for
calls at the same time see `TokenStore`.

What the system decides is in a `Plan`: which operations fail, how much of the
buffered text reaches the file at each, and which names `mkstemp` tries. A save
returns exactly if nothing in the plan is in its way (`FileTokenStore.Clear`).
-/

namespace KgaGateway

/-! ## The program -/

/-- What `save` may raise. -/
inductive SaveExn : Type where
  | fileNotFoundError : SaveExn
  | fileExistsError : SaveExn
  /-- any other class, by name -/
  | named : String → SaveExn
  deriving DecidableEq

/-- An operation of a `save`. It does each at most once. -/
inductive SavePoint : Type where
  | mkdir : SavePoint
  | mkstemp : SavePoint
  | fdopen : SavePoint
  /-- writing a chunk of the JSON text -/
  | chunk : ℕ → SavePoint
  | flush : SavePoint
  | fsync : SavePoint
  | close : SavePoint
  | replace : SavePoint
  | unlink : SavePoint
  deriving DecidableEq

/-- What the system does. -/
structure Plan : Type where
  /-- the exception an operation raises -/
  fault : SavePoint → Option SaveExn
  /-- how much of the buffer reaches the file when a chunk is written, or when
  an operation that writes the buffer out fails -/
  reaches : SavePoint → ℕ
  /-- the characters `mkstemp` tries, one after the other -/
  candidates : List String

/-- The disk, what is buffered for the open file, and the exceptions that arose,
the last one first. -/
structure World : Type where
  disk : Disk String Char
  buffer : List Char
  raised : List SaveExn

namespace World

/-- Some of the buffer reaches the file; nothing is written if that is
nothing. -/
def drain (w : World) (fd n : ℕ) : World :=
  match w.buffer.take n with
  | [] => w
  | content => { w with disk := w.disk.append fd content, buffer := w.buffer.drop n }

theorem drain_cases (w : World) (fd n : ℕ) :
    (w.buffer.take n = [] ∧ w.drain fd n = w) ∨
      w.drain fd n =
        { w with disk := w.disk.append fd (w.buffer.take n), buffer := w.buffer.drop n } := by
  unfold drain
  split
  · rename_i h
    exact Or.inl ⟨h, rfl⟩
  · exact Or.inr rfl

theorem buffer_drain (w : World) (fd n : ℕ) : (w.drain fd n).buffer = w.buffer.drop n := by
  rcases w.drain_cases fd n with ⟨htake, h⟩ | h
  · have happend := List.take_append_drop n w.buffer
    rw [htake, List.nil_append] at happend
    rw [h, happend]
  · rw [h]

theorem raised_drain (w : World) (fd n : ℕ) : (w.drain fd n).raised = w.raised := by
  rcases w.drain_cases fd n with ⟨-, h⟩ | h <;> rw [h]

theorem drain_of_nil {w : World} (h : w.buffer = []) (fd n : ℕ) : w.drain fd n = w := by
  rw [drain, h, List.take_nil]

/-- Change the disk. -/
def onDisk (f : Disk String Char → Disk String Char) : Program World SaveExn Unit := fun w =>
  (.ok ⟨⟩, { w with disk := f w.disk })

/-- An exception arises. -/
def fail {X : Type} (e : SaveExn) : Program World SaveExn X := fun w =>
  (.error e, { w with raised := e :: w.raised })

end World

namespace Plan

open World Program

variable (plan : Plan)

/-- The operation fails if it is to. -/
def attempt (point : SavePoint) : Program World SaveExn Unit :=
  match plan.fault point with
  | some e => fail e
  | none => pure ⟨⟩

/-- `path.parent.mkdir(parents=True, exist_ok=True)` -/
def mkdir : Program World SaveExn Unit := do
  plan.attempt .mkdir
  onDisk Disk.mkdir

/-- `tempfile.mkstemp(dir=…, prefix=name, suffix=".tmp")`: the first name that is
free. It returns the file, open, and its name. -/
def mkstemp (name : String) : Program World SaveExn (ℕ × String) := do
  plan.attempt .mkstemp
  fun w =>
    if w.disk.isDir then
      match plan.candidates.find? fun random => (w.disk.entries (tempName name random)).isNone with
      | some random =>
        (.ok (w.disk.next, tempName name random),
          { w with disk := w.disk.create (tempName name random) })
      | none => fail .fileExistsError w
    else fail .fileNotFoundError w

/-- `fh.write(chunk)`: into the buffer, and perhaps further. -/
def write (fd i : ℕ) (chunk : List Char) : Program World SaveExn Unit := fun w =>
  plan.attempt (.chunk i)
    ({ w with buffer := w.buffer ++ chunk }.drain fd (plan.reaches (.chunk i)))

/-- Write the chunks, counting them. -/
def writeChunks (fd : ℕ) : ℕ → List (List Char) → Program World SaveExn Unit
  | _, [] => pure ⟨⟩
  | i, chunk :: chunks => do
    plan.write fd i chunk
    writeChunks fd (i + 1) chunks

/-- `json.dump(token, fh)` -/
def dump (fd : ℕ) (token : PyVal) : Program World SaveExn Unit := do
  plan.writeChunks fd 0 (PyJson.iterencode token).trace
  match (PyJson.iterencode token).result with
  | .ok _ => pure ⟨⟩
  | .error name => fail (.named name)

/-- Write the buffer out; if this fails, some of it is written all the same. -/
def writeOut (point : SavePoint) (fd : ℕ) : Program World SaveExn Unit := fun w =>
  match plan.fault point with
  | some e => fail e (w.drain fd (plan.reaches point))
  | none => (.ok ⟨⟩, w.drain fd w.buffer.length)

/-- `fh.flush()` -/
def flush (fd : ℕ) : Program World SaveExn Unit := plan.writeOut .flush fd

/-- `os.fsync(fh.fileno())` -/
def fsync (fd : ℕ) : Program World SaveExn Unit := do
  plan.attempt .fsync
  onDisk (·.fsync fd)

/-- `fh.close()`: it writes out what is still in the buffer. -/
def close (fd : ℕ) : Program World SaveExn Unit := plan.writeOut .close fd

/-- `os.replace(tmp_name, path)` -/
def replace (tmpName name : String) : Program World SaveExn Unit := do
  plan.attempt .replace
  fun w =>
    match w.disk.entries tmpName with
    | some ino => onDisk (·.change (.rename tmpName name ino)) w
    | none => fail .fileNotFoundError w

/-- `os.unlink(tmp_name)` -/
def unlink (tmpName : String) : Program World SaveExn Unit := fun w =>
  match w.disk.entries tmpName with
  | some _ => (plan.attempt .unlink >>= fun _ => onDisk (·.change (.unlink tmpName))) w
  | none => fail .fileNotFoundError w

end Plan

/-- The store: the file name of its path, and the float reader of the JSON
module. -/
structure FileTokenStore : Type where
  name : String
  reader : FloatReader

namespace FileTokenStore

open World Program

/-- `FileTokenStore.save`. -/
def save (store : FileTokenStore) (plan : Plan) (token : PyVal) :
    Program World SaveExn Unit := do
  plan.mkdir
  let (fd, tmpName) ← plan.mkstemp store.name
  tryExcept
    (do
      plan.attempt .fdopen
      tryFinally
        (do
          plan.dump fd token
          plan.flush fd
          plan.fsync fd)
        (plan.close fd)
      plan.replace tmpName store.name)
    fun e => do
      tryExcept (plan.unlink tmpName) fun e' =>
        if e' = .fileNotFoundError then pure ⟨⟩ else raise e'
      raise e

/-- `FileTokenStore.load`: what the target holds, or `None`. -/
def load (store : FileTokenStore) (disk : Disk String Char) : Except LoadError (Option PyVal) :=
  match disk.read store.name with
  | none => .ok none
  | some content =>
    match PyJson.load store.reader content with
    | some v => .ok (some v)
    | none => .error .jsonDecodeError

end FileTokenStore

/-- A directory, or its absence. What the files hold is free. -/
structure Directory : Type where
  disk : Disk String Char
  used : ∀ file ino, disk.entries file = some ino → ino < disk.next
  noLink : disk.isDir = false → ∀ file, disk.entries file = none

/-- No file is open, and nothing went wrong so far. -/
def Directory.world (dir : Directory) : World := ⟨dir.disk, [], []⟩

/-- Where runs of the store begin. -/
def Start.directory {name : String} (start : Start name) : Directory :=
  ⟨start.disk, start.used, start.noLink⟩

/-! ## What holds during a save -/

namespace World

open Program

/-- The log, the disk and the buffer are like this. -/
def At (L : List SaveExn → Prop) (I : Disk String Char → List Char → Prop) (w : World) : Prop :=
  L w.raised ∧ I w.disk w.buffer

/-- Nothing went wrong. -/
abbrev Calm (I : Disk String Char → List Char → Prop) : World → Prop := At (· = []) I

/-- The last exception was this one, and the disk is like this. -/
abbrev Raised (J : Disk String Char → Prop) (e : SaveExn) : World → Prop :=
  At (fun l => l.head? = some e) fun disk _ => J disk

variable {L : List SaveExn → Prop} {I : Disk String Char → List Char → Prop}
  {J : Disk String Char → Prop}

theorem fail_spec {X : Type} {Q : X → World → Prop} (e : SaveExn) :
    Triple (fun w => J w.disk) (fail e) Q (Raised J) :=
  fun _ hw => ⟨rfl, hw⟩

theorem onDisk_spec {I' : Disk String Char → List Char → Prop} {E : SaveExn → World → Prop}
    {f : Disk String Char → Disk String Char}
    (h : ∀ disk buffer, I disk buffer → I' (f disk) buffer) :
    Triple (At L I) (onDisk f) (fun _ => At L I') E :=
  fun _ hw => ⟨hw.1, h _ _ hw.2⟩

end World

namespace Plan

open World Program

variable {plan : Plan} {L : List SaveExn → Prop} {I : Disk String Char → List Char → Prop}
  {J : Disk String Char → Prop}

/-- An attempt changes nothing. -/
theorem attempt_spec (point : SavePoint) (h : ∀ disk buffer, I disk buffer → J disk) :
    Triple (At L I) (plan.attempt point) (fun _ => At L I) (Raised J) := by
  rw [attempt]
  split
  · exact (fail_spec _).imp (fun _ hw => h _ _ hw.2) (fun _ _ => id) fun _ _ => id
  · exact Triple.pure (Q := fun _ => At L I) ()

end Plan

/-- The disk while the temporary file is there: its name is new, and nothing
else is different. -/
structure Staged (disk₀ : Disk String Char) (tmpName : String) (disk : Disk String Char) :
    Prop where
  isDir : disk.isDir = true
  entries : disk.entries = Function.update disk₀.entries tmpName (some disk₀.next)
  data : ∀ ino, ino ≠ disk₀.next → disk.data ino = disk₀.data ino

/-- This text was written to the temporary file, though it may still be in the
buffer. -/
def Staging (disk₀ : Disk String Char) (tmpName : String) (t : List Char)
    (disk : Disk String Char) (buffer : List Char) : Prop :=
  Staged disk₀ tmpName disk ∧ disk.data disk₀.next ++ buffer = t

section Staged

variable {disk₀ disk : Disk String Char} {tmpName : String} {t buffer : List Char}

theorem Staged.entry (h : Staged disk₀ tmpName disk) : disk.entries tmpName = some disk₀.next := by
  rw [h.entries, Function.update_self]

theorem Staged.append (h : Staged disk₀ tmpName disk) (content : List Char) :
    Staged disk₀ tmpName (disk.append disk₀.next content) where
  isDir := h.isDir
  entries := h.entries
  data ino hino := (Function.update_of_ne hino ..).trans (h.data ino hino)

theorem Staging.drain {w : World} (h : Staging disk₀ tmpName t w.disk w.buffer) (n : ℕ) :
    Staging disk₀ tmpName t (w.drain disk₀.next n).disk (w.drain disk₀.next n).buffer := by
  rcases w.drain_cases disk₀.next n with ⟨-, hdrain⟩ | hdrain
  · rwa [hdrain]
  · rw [hdrain]
    refine ⟨h.1.append _, ?_⟩
    rw [Disk.data_append_self, List.append_assoc, List.take_append_drop]
    exact h.2

theorem Staging.fsync (h : Staging disk₀ tmpName t disk buffer) :
    Staging disk₀ tmpName t (disk.fsync disk₀.next) buffer :=
  ⟨⟨h.1.isDir, h.1.entries, h.1.data⟩, h.2⟩

end Staged

/-! ## The operations, one by one -/

namespace Plan

open World Program

variable {plan : Plan} {disk₀ : Disk String Char} {tmpName : String} {t : List Char}
  {L : List SaveExn → Prop}

theorem mkdir_spec : Triple (Calm fun disk buffer => disk = disk₀ ∧ buffer = []) plan.mkdir
    (fun _ => Calm fun disk buffer => disk = disk₀.mkdir ∧ buffer = []) (Raised (· = disk₀)) := by
  rw [mkdir]
  refine (attempt_spec .mkdir fun _ _ h => h.1).bind fun _ => onDisk_spec ?_
  rintro disk buffer ⟨rfl, rfl⟩
  exact ⟨rfl, rfl⟩

/-- The name is new, and not the name of the target, which is shorter. -/
theorem mkstemp_spec {name : String} : Triple
    (Calm fun disk buffer => disk = disk₀.mkdir ∧ buffer = []) (plan.mkstemp name)
    (fun p w => (p.1 = disk₀.next ∧ p.2 ≠ name ∧ disk₀.entries p.2 = none) ∧
      Calm (Staging disk₀ p.2 []) w)
    (Raised (· = disk₀.mkdir)) := by
  rw [mkstemp]
  refine (attempt_spec .mkstemp fun _ _ h => h.1).bind fun _ => ?_
  rintro ⟨disk, buffer, raised⟩ ⟨hcalm, rfl, rfl⟩
  simp only [Disk.isDir_mkdir, Disk.entries_mkdir, if_true]
  cases hfind : plan.candidates.find? fun random =>
      (disk₀.entries (tempName name random)).isNone with
  | none => exact ⟨rfl, rfl⟩
  | some random =>
    have hfree : (disk₀.entries (tempName name random)).isNone = true :=
      List.find?_some (p := fun random => (disk₀.entries (tempName name random)).isNone) hfind
    refine ⟨⟨rfl, tempName_ne name random, Option.isNone_iff_eq_none.mp hfree⟩, hcalm, ?_, ?_⟩
    · exact ⟨rfl, rfl, fun ino hino => Function.update_of_ne hino ..⟩
    · rw [List.append_nil]
      exact Function.update_self ..

/-- Writing a chunk. -/
theorem write_spec (i : ℕ) (chunk : List Char) :
    Triple (At L (Staging disk₀ tmpName t)) (plan.write disk₀.next i chunk)
      (fun _ => At L (Staging disk₀ tmpName (t ++ chunk))) (Raised (Staged disk₀ tmpName)) := by
  rintro w ⟨hlog, hstaged, hwritten⟩
  have hstaging : Staging disk₀ tmpName (t ++ chunk) w.disk (w.buffer ++ chunk) :=
    ⟨hstaged, by rw [← hwritten, List.append_assoc]⟩
  refine attempt_spec (.chunk i) (fun _ _ h => h.1) _ ⟨?_, ?_⟩
  · rwa [World.raised_drain]
  · exact hstaging.drain (w := { w with buffer := w.buffer ++ chunk }) _

/-- By induction on the chunks. -/
theorem writeChunks_spec (chunks : List (List Char)) : ∀ (i : ℕ) (t : List Char),
    Triple (At L (Staging disk₀ tmpName t)) (plan.writeChunks disk₀.next i chunks)
      (fun _ => At L (Staging disk₀ tmpName (t ++ chunks.flatten)))
      (Raised (Staged disk₀ tmpName)) := by
  induction chunks with
  | nil =>
    intro i t
    rw [List.flatten_nil, List.append_nil]
    exact Triple.pure (Q := fun _ => At L (Staging disk₀ tmpName t)) ()
  | cons chunk chunks ih =>
    intro i t
    rw [List.flatten_cons, ← List.append_assoc]
    exact (write_spec i chunk).bind fun _ => ih (i + 1) (t ++ chunk)

/-- The dump returns if the token has a text, and has then written it. -/
theorem dump_spec (token : PyVal) :
    Triple (At L (Staging disk₀ tmpName [])) (plan.dump disk₀.next token)
      (fun _ w => PyJson.encodable token = true ∧
        At L (Staging disk₀ tmpName (PyJson.text token)) w)
      (Raised (Staged disk₀ tmpName)) := by
  obtain ⟨hresult, htext⟩ := PyJson.iterencode_spec token
  rw [dump]
  refine (writeChunks_spec _ 0 []).bind fun _ => ?_
  rw [hresult, List.nil_append]
  cases hencodable : PyJson.encodable token with
  | true =>
    rw [htext hencodable]
    exact fun w hw => ⟨rfl, hw⟩
  | false => exact (fail_spec _).imp (fun w hw => hw.2.1) (fun _ _ => id) fun _ _ => id

/-- Writing the buffer out. -/
theorem writeOut_spec (point : SavePoint) :
    Triple (At L (Staging disk₀ tmpName t)) (plan.writeOut point disk₀.next)
      (fun _ => At L fun disk buffer => Staging disk₀ tmpName t disk buffer ∧ buffer = [])
      (Raised (Staged disk₀ tmpName)) := by
  rintro w ⟨hlog, hstaging⟩
  rw [writeOut]
  cases plan.fault point with
  | some e => exact ⟨rfl, (hstaging.drain _).1⟩
  | none =>
    refine ⟨?_, hstaging.drain _, ?_⟩
    · rwa [World.raised_drain]
    · rw [World.buffer_drain, List.drop_length]

theorem fsync_spec : Triple (At L (Staging disk₀ tmpName t)) (plan.fsync disk₀.next)
    (fun _ => At L (Staging disk₀ tmpName t)) (Raised (Staged disk₀ tmpName)) := by
  rw [fsync]
  exact (attempt_spec .fsync fun _ _ h => h.1).bind fun _ => onDisk_spec fun _ _ h => h.fsync

/-- Closing the file while an exception is on its way: that exception goes on,
or the one closing raises. -/
theorem close_unwinding (e : SaveExn) :
    Triple (Raised (Staged disk₀ tmpName) e) (plan.close disk₀.next)
      (fun _ => Raised (Staged disk₀ tmpName) e) (Raised (Staged disk₀ tmpName)) := by
  rintro w ⟨hlog, hstaged⟩
  have hclose : EndsWith _ _ (plan.close disk₀.next w) :=
    writeOut_spec (L := fun l => l.head? = some e) .close w ⟨hlog, hstaged, rfl⟩
  exact hclose.imp (fun _ w hw => ⟨hw.1, hw.2.1.1⟩) fun _ _ => id

/-- The `with` block: the file is closed whatever happens, and after a return it
holds the text of the token. -/
theorem with_spec (token : PyVal) : Triple (Calm (Staging disk₀ tmpName []))
    (tryFinally
      (do
        plan.dump disk₀.next token
        plan.flush disk₀.next
        plan.fsync disk₀.next)
      (plan.close disk₀.next))
    (fun _ w => PyJson.encodable token = true ∧ Calm (fun disk _ => Staged disk₀ tmpName disk ∧
      disk.data disk₀.next = PyJson.text token) w)
    (Raised (Staged disk₀ tmpName)) := by
  refine Triple.tryFinally
    (M := fun _ w => PyJson.encodable token = true ∧
      Calm (Staging disk₀ tmpName (PyJson.text token)) w)
    (F := Raised (Staged disk₀ tmpName)) ?_ (fun _ => ?_) close_unwinding
  · refine (dump_spec token).bind fun _ => Triple.assume fun hencodable => ?_
    refine (writeOut_spec .flush).bind fun _ => ?_
    exact fsync_spec.imp (fun w hw => ⟨hw.1, hw.2.1⟩) (fun _ w hw => ⟨hencodable, hw⟩)
      fun _ _ => id
  · refine Triple.assume fun hencodable => (writeOut_spec .close).imp (fun _ => id) ?_ fun _ _ => id
    rintro _ w ⟨hlog, ⟨hstaged, hwritten⟩, hbuffer⟩
    rw [hbuffer, List.append_nil] at hwritten
    exact ⟨hencodable, hlog, hstaged, hwritten⟩

/-- Moving the temporary file over the target. -/
theorem replace_spec {name : String} {I : Disk String Char → List Char → Prop}
    (h : ∀ disk buffer, I disk buffer → Staged disk₀ tmpName disk) :
    Triple (At L I) (plan.replace tmpName name)
      (fun _ => At L fun disk buffer => ∃ disk', I disk' buffer ∧
        disk = disk'.change (.rename tmpName name disk₀.next))
      (Raised (Staged disk₀ tmpName)) := by
  rw [replace]
  refine (attempt_spec .replace h).bind fun _ => ?_
  rintro w ⟨hlog, hdisk⟩
  simp only [(h _ _ hdisk).entry]
  exact ⟨hlog, w.disk, hdisk, rfl⟩

/-- Unlinking the temporary file, if that does not fail. -/
theorem unlink_spec {e : SaveExn} : Triple (Raised (Staged disk₀ tmpName) e) (plan.unlink tmpName)
    (fun _ => Raised (fun disk => ∃ disk', Staged disk₀ tmpName disk' ∧
      disk = disk'.change (.unlink tmpName)) e)
    (fun _ w => plan.fault .unlink ≠ none ∧ Staged disk₀ tmpName w.disk) := by
  rintro w ⟨hlog, hstaged⟩
  simp only [unlink, attempt, hstaged.entry]
  cases hfault : plan.fault .unlink with
  | none => exact ⟨hlog, w.disk, hstaged, rfl⟩
  | some e' => exact ⟨Option.some_ne_none e', hstaged⟩

/-! ### When they return -/

theorem attempt_returns (point : SavePoint) :
    ReturnsIff (fun _ => True) (plan.attempt point) (plan.fault point = none) := by
  rw [attempt]
  cases plan.fault point with
  | some e => exact fun _ _ => Option.some_ne_none e
  | none => exact fun _ _ => rfl

theorem onDisk_returns (f : Disk String Char → Disk String Char) :
    ReturnsIff (fun _ => True) (onDisk f) True :=
  fun _ _ => trivial

theorem mkdir_returns : ReturnsIff (fun _ => True) plan.mkdir (plan.fault .mkdir = none) :=
  ((attempt_returns .mkdir).then fun _ => onDisk_returns _).imp (fun _ => id) (and_iff_left trivial)

/-- `mkstemp` needs a name that is free. -/
theorem mkstemp_returns {name : String} : ReturnsIff
    (Calm fun disk buffer => disk = disk₀.mkdir ∧ buffer = []) (plan.mkstemp name)
    (plan.fault .mkstemp = none ∧
      ∃ random ∈ plan.candidates, disk₀.entries (tempName name random) = none) := by
  rw [mkstemp]
  refine ReturnsIff.bind (attempt_spec (J := fun _ => True) .mkstemp fun _ _ _ => trivial)
    (attempt_returns .mkstemp).anywhere fun _ => ?_
  rintro ⟨disk, buffer, raised⟩ ⟨-, rfl, rfl⟩
  simp only [Disk.isDir_mkdir, Disk.entries_mkdir, if_true]
  cases hfind : plan.candidates.find? fun random =>
      (disk₀.entries (tempName name random)).isNone with
  | none =>
    rintro ⟨random, hmem, hfree⟩
    exact List.find?_eq_none.mp hfind random hmem (Option.isNone_iff_eq_none.mpr hfree)
  | some random =>
    exact ⟨random, List.mem_of_find?_eq_some hfind, Option.isNone_iff_eq_none.mp <|
      List.find?_some (p := fun random => (disk₀.entries (tempName name random)).isNone) hfind⟩

theorem write_returns (fd i : ℕ) (chunk : List Char) :
    ReturnsIff (fun _ => True) (plan.write fd i chunk) (plan.fault (.chunk i) = none) :=
  fun _ _ => attempt_returns (.chunk i) _ trivial

/-- By induction on the chunks. -/
theorem writeChunks_returns (fd : ℕ) (chunks : List (List Char)) : ∀ i : ℕ,
    ReturnsIff (fun _ => True) (plan.writeChunks fd i chunks)
      (∀ j < chunks.length, plan.fault (.chunk (i + j)) = none) := by
  induction chunks with
  | nil => exact fun i => (ReturnsIff.pure ()).imp (fun _ => id) (by simp)
  | cons chunk chunks ih =>
    intro i
    refine ((write_returns fd i chunk).then fun _ => ih (i + 1)).imp (fun _ => id) ?_
    rw [List.length_cons, Nat.forall_lt_succ_left]
    simp only [Nat.add_zero, Nat.add_right_comm i 1, Nat.add_assoc]

theorem dump_returns (fd : ℕ) (token : PyVal) :
    ReturnsIff (fun _ => True) (plan.dump fd token)
      ((∀ i < (PyJson.iterencode token).trace.length, plan.fault (.chunk i) = none) ∧
        PyJson.encodable token = true) := by
  have hchunks := @writeChunks_returns plan fd (PyJson.iterencode token).trace 0
  simp only [Nat.zero_add] at hchunks
  refine hchunks.then fun _ => ?_
  rw [(PyJson.iterencode_spec token).1]
  cases PyJson.encodable token with
  | true => exact fun _ _ => rfl
  | false => exact fun _ _ => Bool.false_ne_true

theorem writeOut_returns (point : SavePoint) (fd : ℕ) :
    ReturnsIff (fun _ => True) (plan.writeOut point fd) (plan.fault point = none) := by
  intro w _
  rw [writeOut]
  cases plan.fault point with
  | some e => exact Option.some_ne_none e
  | none => exact rfl

theorem fsync_returns (fd : ℕ) :
    ReturnsIff (fun _ => True) (plan.fsync fd) (plan.fault .fsync = none) :=
  ((attempt_returns .fsync).then fun _ => onDisk_returns _).imp (fun _ => id) (and_iff_left trivial)

/-- The `with` block: what is written and the closing. -/
theorem with_returns (fd : ℕ) (token : PyVal) : ReturnsIff (fun _ => True)
    (tryFinally
      (do
        plan.dump fd token
        plan.flush fd
        plan.fsync fd)
      (plan.close fd))
    ((((∀ i < (PyJson.iterencode token).trace.length, plan.fault (.chunk i) = none) ∧
        PyJson.encodable token = true) ∧ plan.fault .flush = none ∧ plan.fault .fsync = none) ∧
      plan.fault .close = none) := by
  refine ReturnsIff.tryFinally ?_ (writeOut_returns .close fd)
  exact (dump_returns fd token).then fun _ => (writeOut_returns .flush fd).then fun _ =>
    fsync_returns fd

/-- There is a file to move. -/
theorem replace_returns {name : String} {I : Disk String Char → List Char → Prop}
    (h : ∀ disk buffer, I disk buffer → Staged disk₀ tmpName disk) :
    ReturnsIff (At L I) (plan.replace tmpName name) (plan.fault .replace = none) := by
  have hattempt := (@attempt_returns plan .replace).anywhere (P := At L I)
  rw [replace]
  refine ReturnsIff.imp (ReturnsIff.bind (attempt_spec .replace h) hattempt fun _ => ?_)
    (fun _ => id) (and_iff_left trivial)
  rintro w ⟨-, hdisk⟩
  simp only [(h _ _ hdisk).entry]
  exact trivial

end Plan

/-! ## What is found afterwards -/

section After

variable {dir : Directory} {disk disk' : Disk String Char} {tmpName : String}

theorem Directory.read_eq (dir : Directory) (file : String) :
    dir.disk.read file = (dir.disk.entries file).map dir.disk.data := by
  cases hdir : dir.disk.isDir with
  | true => exact Disk.read_of_isDir hdir file
  | false =>
    rw [dir.noLink hdir file, Disk.read, hdir]
    rfl

theorem Directory.read_mkdir (dir : Directory) (file : String) :
    dir.disk.mkdir.read file = dir.disk.read file := by
  rw [dir.read_eq, Disk.read_of_isDir rfl]
  rfl

/-- The files that were there hold what they held. -/
theorem Staged.map_data (h : Staged dir.disk tmpName disk) (file : String) :
    (dir.disk.entries file).map disk.data = (dir.disk.entries file).map dir.disk.data :=
  Option.map_congr fun ino hino => h.data ino (Nat.ne_of_lt (dir.used file ino hino))

theorem Staged.read_of_ne (h : Staged dir.disk tmpName disk) {file : String}
    (hfile : file ≠ tmpName) : disk.read file = dir.disk.read file := by
  rw [dir.read_eq, Disk.read_of_isDir h.isDir, h.entries, Function.update_of_ne hfile, h.map_data]

/-- A name that is linked as before reads as before. -/
theorem Staged.read_change (h : Staged dir.disk tmpName disk) {op : DirOp String} {file : String}
    (hentry : (disk.change op).entries file = dir.disk.entries file) :
    (disk.change op).read file = dir.disk.read file := by
  have hdir : (disk.change op).isDir = true := h.isDir
  rw [dir.read_eq, Disk.read_of_isDir hdir, hentry]
  exact h.map_data file

/-- Without the temporary name all is as it was. -/
theorem Staged.read_unlink (h : Staged dir.disk tmpName disk)
    (hfree : dir.disk.entries tmpName = none) (file : String) :
    (disk.change (.unlink tmpName)).read file = dir.disk.read file := by
  apply h.read_change
  by_cases hfile : file = tmpName
  · rw [hfile, Disk.entries_unlink_self, hfree]
  · rw [Disk.entries_change_of_not_mem (by simpa [DirOp.names] using hfile), h.entries,
      Function.update_of_ne hfile]

/-- After the move only the target is different. -/
theorem Staged.read_rename (h : Staged dir.disk tmpName disk)
    (hfree : dir.disk.entries tmpName = none) {name file : String} (hname : tmpName ≠ name)
    (hfile : file ≠ name) :
    (disk.change (.rename tmpName name dir.disk.next)).read file = dir.disk.read file := by
  apply h.read_change
  by_cases htmp : file = tmpName
  · rw [htmp, Disk.entries_rename_source hname, hfree]
  · rw [Disk.entries_change_of_not_mem (by simp [DirOp.names, htmp, hfile]), h.entries,
      Function.update_of_ne htmp]

theorem Staged.read_target (h : Staged dir.disk tmpName disk) (name : String) :
    (disk.change (.rename tmpName name dir.disk.next)).read name =
      some (disk.data dir.disk.next) := by
  have hdir : (disk.change (.rename tmpName name dir.disk.next)).isDir = true := h.isDir
  rw [Disk.read_of_isDir hdir, Disk.entries_rename_target]
  rfl

end After

/-- The operations of a save of this token, if nothing goes wrong. -/
def SavePoint.Of (point : SavePoint) (token : PyVal) : Prop :=
  match point with
  | .chunk i => i < (PyJson.iterencode token).trace.length
  | .unlink => False
  | _ => True

namespace FileTokenStore

open World Program

variable (store : FileTokenStore) (plan : Plan) (dir : Directory) (token : PyVal)

/-- The target holds the token, and every other name reads as before. -/
def Stores (disk : Disk String Char) : Prop :=
  PyJson.encodable token = true ∧ disk.read store.name = some (PyJson.text token) ∧
    ∀ file, file ≠ store.name → disk.read file = dir.disk.read file

/-- Every name reads as before. The directory itself may be new. -/
structure Unchanged (disk : Disk String Char) : Prop where
  isDir : dir.disk.isDir = true → disk.isDir = true
  read : ∀ file, disk.read file = dir.disk.read file

/-- The temporary file is still there, and every other name reads as before. -/
def LeavesTemp (disk : Disk String Char) : Prop :=
  ∃ tmpName, dir.disk.entries tmpName = none ∧
    ∀ file, file ≠ tmpName → disk.read file = dir.disk.read file

/-- What is left of a save that raises: nothing, unless unlinking fails too. -/
def Failed (e : SaveExn) (w : World) : Prop :=
  Raised (Unchanged dir) e w ∨ plan.fault .unlink ≠ none ∧ LeavesTemp dir w.disk

/-- The `except` clause: the temporary file goes. -/
theorem except_spec {tmpName : String} (hfree : dir.disk.entries tmpName = none) (e : SaveExn) :
    Triple (Raised (Staged dir.disk tmpName) e)
      (tryExcept (plan.unlink tmpName) fun e' =>
        if e' = .fileNotFoundError then pure ⟨⟩ else raise e')
      (fun _ => Failed plan dir e) (Failed plan dir) := by
  refine Triple.tryExcept
    (F := fun _ w => plan.fault .unlink ≠ none ∧ LeavesTemp dir w.disk) ?_ fun e' => ?_
  · refine Plan.unlink_spec.imp (fun _ => id) ?_ ?_
    · rintro _ ⟨_, buffer, raised⟩ ⟨hlog, disk, hstaged, rfl⟩
      exact Or.inl ⟨hlog, fun _ => hstaged.isDir, hstaged.read_unlink hfree⟩
    · rintro _ w ⟨hfault, hstaged⟩
      exact ⟨hfault, tmpName, hfree, fun file hfile => hstaged.read_of_ne hfile⟩
  · by_cases he : e' = .fileNotFoundError
    · rw [if_pos he]
      exact fun w hw => Or.inr hw
    · rw [if_neg he]
      exact fun w hw => Or.inr hw

/-- **How a save ends**. The rules follow the text of the program; each
operation has its own lemma above. -/
theorem save_spec : Triple (fun w => w = dir.world) (store.save plan token)
    (fun _ => Calm fun disk _ => store.Stores dir token disk) (Failed plan dir) := by
  rw [save]
  refine Triple.bind (Q := fun _ => Calm fun disk buffer => disk = dir.disk.mkdir ∧ buffer = [])
    ?_ fun _ => ?_
  · refine Plan.mkdir_spec.imp (fun w hw => ?_) (fun _ _ => id) ?_
    · obtain rfl := hw
      exact ⟨rfl, rfl, rfl⟩
    · rintro e ⟨disk, buffer, raised⟩ ⟨hlog, hdisk⟩
      obtain rfl : disk = dir.disk := hdisk
      exact Or.inl ⟨hlog, id, fun _ => rfl⟩
  refine Triple.bind (Plan.mkstemp_spec.imp (fun _ => id) (fun _ _ => id) ?_) ?_
  · rintro e ⟨disk, buffer, raised⟩ ⟨hlog, hdisk⟩
    obtain rfl : disk = dir.disk.mkdir := hdisk
    exact Or.inl ⟨hlog, fun _ => rfl, dir.read_mkdir⟩
  rintro ⟨fd, tmpName⟩
  apply Triple.assume
  rintro ⟨rfl, hname, hfree⟩
  refine Triple.tryExcept (F := Raised (Staged dir.disk tmpName)) ?_ fun e => ?_
  · refine (Plan.attempt_spec .fdopen fun _ _ hstaging => hstaging.1).bind fun _ => ?_
    refine (Plan.with_spec token).bind fun _ => Triple.assume fun hencodable => ?_
    refine (Plan.replace_spec fun _ _ hdisk => hdisk.1).imp (fun _ => id) ?_ fun _ _ => id
    rintro _ w ⟨hlog, disk, ⟨hstaged, hwritten⟩, hdisk⟩
    refine ⟨hlog, hencodable, ?_, fun file hfile => ?_⟩
    · rw [hdisk, hstaged.read_target, hwritten]
    · rw [hdisk, hstaged.read_rename hfree hname hfile]
  · exact (except_spec plan dir hfree e).bind fun _ => Triple.raise (E := Failed plan dir) e

/-- Nothing is in the way of a save: none of its operations is to fail, one of
the names that `mkstemp` tries is free, and the token has a text. -/
structure Clear : Prop where
  fault : ∀ point : SavePoint, point.Of token → plan.fault point = none
  free : ∃ random ∈ plan.candidates, dir.disk.entries (tempName store.name random) = none
  encodable : PyJson.encodable token = true

/-- The same, in the order of the program. -/
theorem clear_iff : store.Clear plan dir token ↔
    plan.fault .mkdir = none ∧
      (plan.fault .mkstemp = none ∧
        ∃ random ∈ plan.candidates, dir.disk.entries (tempName store.name random) = none) ∧
      plan.fault .fdopen = none ∧
      ((((∀ i < (PyJson.iterencode token).trace.length, plan.fault (.chunk i) = none) ∧
          PyJson.encodable token = true) ∧ plan.fault .flush = none ∧ plan.fault .fsync = none) ∧
        plan.fault .close = none) ∧
      plan.fault .replace = none := by
  constructor
  · rintro ⟨hfault, hfree, hencodable⟩
    exact ⟨hfault .mkdir trivial, ⟨hfault .mkstemp trivial, hfree⟩, hfault .fdopen trivial,
      ⟨⟨⟨fun i hi => hfault (.chunk i) hi, hencodable⟩, hfault .flush trivial,
        hfault .fsync trivial⟩, hfault .close trivial⟩, hfault .replace trivial⟩
  · rintro ⟨hmkdir, ⟨hmkstemp, hfree⟩, hfdopen, ⟨⟨⟨hchunk, hencodable⟩, hflush, hfsync⟩, hclose⟩,
      hreplace⟩
    refine ⟨fun point hof => ?_, hfree, hencodable⟩
    cases point with
    | chunk i => exact hchunk i hof
    | unlink => exact hof.elim
    | _ => assumption

/-- **When a save returns**: exactly if nothing is in its way. The triples above
say where each operation starts. -/
theorem save_returns : ReturnsIff (fun w => w = dir.world) (store.save plan token)
    (store.Clear plan dir token) := by
  refine ReturnsIff.imp ?_ (fun _ => id) (store.clear_iff plan dir token).symm
  rw [save]
  have hstart : ∀ w, w = dir.world →
      Calm (fun disk buffer => disk = dir.disk ∧ buffer = []) w := by
    rintro w rfl
    exact ⟨rfl, rfl, rfl⟩
  refine ReturnsIff.bind (Plan.mkdir_spec.imp hstart (fun _ _ => id) fun _ _ => id)
    Plan.mkdir_returns.anywhere fun _ => ?_
  refine ReturnsIff.bind Plan.mkstemp_spec Plan.mkstemp_returns ?_
  rintro ⟨fd, tmpName⟩
  apply Triple.assume
  rintro ⟨rfl, -, -⟩
  refine ReturnsIff.tryExcept ?_ fun e =>
    Triple.bind (Triple.const not_false) fun _ => ReturnsIff.raise e
  refine ReturnsIff.bind (Plan.attempt_spec .fdopen fun _ _ hstaging => hstaging.1)
    (Plan.attempt_returns .fdopen).anywhere fun _ => ?_
  refine ReturnsIff.bind (Plan.with_spec token)
    (Plan.with_returns _ token).anywhere fun _ => ?_
  exact Triple.assume fun _ => Plan.replace_returns fun _ _ hdisk => hdisk.1

/-- **A save does all or nothing.** It returns, nothing went wrong, and the
target holds the token; or an exception arose, the last one reaches the caller,
and every name reads as before. The first is the case exactly if nothing was in
the way of the save. -/
theorem save_all_or_nothing (h : plan.fault .unlink = none) :
    let ending := store.save plan token dir.world
    ((ending.1 = .ok () ∧ ending.2.raised = [] ∧ store.Stores dir token ending.2.disk) ∨
      ∃ e, ending.1 = .error e ∧ ending.2.raised.head? = some e ∧
        Unchanged dir ending.2.disk) ∧
      (ending.1 = .ok () ↔ store.Clear plan dir token) := by
  have hends := store.save_spec plan dir token dir.world rfl
  dsimp only
  rw [← (store.save_returns plan dir token).iff rfl]
  refine ⟨?_, fun hok => ⟨_, hok⟩, fun ⟨_, hok⟩ => hok⟩
  rcases hending : store.save plan token dir.world with ⟨e | _, w⟩
  · rw [hending] at hends
    rcases hends with ⟨hlog, hsame⟩ | ⟨hfault, -⟩
    · exact Or.inr ⟨e, rfl, hlog, hsame⟩
    · exact absurd h hfault
  · rw [hending] at hends
    exact Or.inl ⟨rfl, hends.1, hends.2⟩

/-- The last chunk cannot be written, and then the file cannot be closed. -/
theorem save_all_or_nothing_of_full_disk :
    let store : FileTokenStore := ⟨"token.json", .ofRepr⟩
    let full : SaveExn := .named "OSError"
    let plan : Plan := ⟨fun point => if point = .chunk 4 ∨ point = .close then some full else none,
      fun _ => 1, ["x"]⟩
    let dir := (Start.holding "token.json" (.ofRefresh "rt0")).directory
    let token : PyVal := .dict [(.str [97], .atom .none)]
    let ending := store.save plan token dir.world
    ending.1 = .error full ∧ ending.2.raised = [full, full] ∧ Unchanged dir ending.2.disk ∧
      ¬store.Clear plan dir token := by
  intro store full plan dir token ending
  obtain ⟨hending, hclear⟩ := store.save_all_or_nothing plan dir token rfl
  have hraised : ending.1 = .error full := rfl
  rcases hending with ⟨hok, -⟩ | ⟨e, -, -, hsame⟩
  · cases hok
  · exact ⟨hraised, rfl, hsame, fun h => by cases hraised.symm.trans (hclear.mpr h)⟩

/-! ## Loading what was saved -/

theorem stores_of_save (h : (store.save plan token dir.world).1 = .ok ()) :
    store.Stores dir token (store.save plan token dir.world).2.disk := by
  have hends := store.save_spec plan dir token dir.world rfl
  rcases hending : store.save plan token dir.world with ⟨e | _, w⟩
  · rw [hending] at h
    cases h
  · rw [hending] at hends
    exact hends.2

/-- A `load` after a `save` that returned gives what the token becomes, whatever
was there before. -/
theorem load_save (h : (store.save plan token dir.world).1 = .ok ()) :
    store.load (store.save plan token dir.world).2.disk = .ok (some (PyJson.jsonize token)) := by
  obtain ⟨hencodable, hread, -⟩ := store.stores_of_save plan dir token h
  simp only [load, hread, PyJson.load_text hencodable]

section RoundTrip

variable {numEq : Int → PyFloat → Bool}

/-- The next `load` returns a dict that is equal to the token. -/
def RoundTrips (token : PyDict numEq) : Prop :=
  ∃ v, store.load (store.save plan token.val dir.world).2.disk = .ok (some v) ∧
    v.eq numEq token.val = true

/-- **What round-trips**: of the dicts that are saved, those that JSON keeps as
they are. -/
theorem roundTrips_iff (token : PyDict numEq)
    (h : (store.save plan token.val dir.world).1 = .ok ()) :
    store.RoundTrips plan dir token ↔ PyJson.Verbatim token.val := by
  have hencodable := (store.stores_of_save plan dir token.val h).1
  rw [← PyJson.eq_jsonize_iff token.val hencodable token.distinct, RoundTrips,
    store.load_save plan dir token.val h]
  constructor
  · rintro ⟨v, hv, heq⟩
    obtain rfl := Option.some.inj (Except.ok.inj hv)
    exact heq
  · exact fun heq => ⟨_, rfl, heq⟩

end RoundTrip

/-- A token that an earlier one is replaced by. -/
theorem roundTrips_of_rotation :
    let store : FileTokenStore := ⟨"token.json", .ofRepr⟩
    let plan : Plan := ⟨fun _ => none, fun _ => 0, ["x"]⟩
    let dir := (Start.holding "token.json" (.ofRefresh "rt0")).directory
    let token : PyDict fun n x => x.text == toString n ++ ".0" :=
      ⟨PyJson.ofJson.members (Token.ofRefresh "rt1").members,
        PyJson.distinctKeys_ofJson _ (Token.ofRefresh "rt1").distinct⟩
    store.RoundTrips plan dir token := by
  intro store plan dir token
  apply (store.roundTrips_iff plan dir token rfl).mpr
  exact (PyJson.ofJson_members_spec (Token.ofRefresh "rt1").members).2.2

/-- A key that is a number comes back as a string. -/
theorem roundTrips_fails_on_intKey :
    let store : FileTokenStore := ⟨"token.json", .ofRepr⟩
    let plan : Plan := ⟨fun _ => none, fun _ => 0, ["x"]⟩
    let dir := (Start.absent "token.json").directory
    let token : PyDict fun n x => x.text == toString n ++ ".0" :=
      ⟨[(.int 1, .atom .none)], List.pairwise_singleton _ _, trivial, trivial⟩
    (store.save plan token.val dir.world).1 = .ok () ∧ ¬ store.RoundTrips plan dir token := by
  intro store plan dir token
  refine ⟨rfl, ?_⟩
  rintro ⟨v, hv, heq⟩
  rw [store.load_save plan dir token.val rfl] at hv
  obtain rfl := Option.some.inj (Except.ok.inj hv)
  cases heq

end FileTokenStore

end KgaGateway
