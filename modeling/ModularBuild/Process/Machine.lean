import ModularBuild.Files.Task
import ModularBuild.Process.Output
import ModularBuild.Text.Utf8

/-!
# What processes share

Processes of one machine share its files, the files they have opened, and the channels between them.
A process holds open files by descriptor: 0 is what it reads, 1 what it writes, 2 what it complains
to. A file stays open when its name is taken away, and follows it when it gets another.
-/

namespace ModularBuild

inductive Target where
  | device (d : Device)
  | channel (id : Nat)
  | file (l : Location)
  /-- A file that has lost its name. -/
  | nameless (bytes : List UInt8)
  | directory (l : Location)
deriving DecidableEq, Inhabited

structure OpenFile where
  target : Target
  /-- Where reading or writing goes on. -/
  offset : Nat := 0
  reads : Bool := false
  writes : Bool := false
  /-- Whether writing goes on at the end, whatever the offset. -/
  appends : Bool := false
deriving Inhabited

structure Channel where
  /-- What was written, newest first. -/
  chunks : List (List UInt8) := []
  size : Nat := 0
  /-- The most bytes that are taken before the channel breaks. -/
  capacity : Option Nat := none
deriving Inhabited

structure Machine where
  files : FileSystem
  opened : Array OpenFile := #[]
  channels : Array Channel := #[]
  /-- The signals sent to processes and not yet noticed by them, oldest first. -/
  signals : List (Nat × Signal) := []
  /-- The number of the next process. -/
  nextProcess : Nat := 1000

abbrev MachineM := StateM Machine

/-- What a process is born with. All its texts are texts of bytes. -/
structure ProcessContext where
  /-- The name it is called by, and its arguments. -/
  args : List String
  cwd : Location
  /-- The environment, a name and a value in each text. -/
  env : List String := []
  /-- The open files, by descriptor. -/
  descriptors : SortedMap Nat Nat := ∅
  /-- The permissions that new files go without. -/
  umask : Nat := 0o022
  process : Nat := 1
  parent : Nat := 0
  /-- The signals that the process takes no notice of. -/
  ignored : List Signal := []

/-- How programs are started: from a file, with a context, run to the end. -/
structure Launcher where
  start : String → ProcessContext → MachineM (Except FileError ExitStatus)

namespace Machine

/-! ## Open files -/

def hold (o : OpenFile) : MachineM Nat := fun m =>
  (m.opened.size, { m with opened := m.opened.push o })

def newChannel (capacity : Option Nat) : MachineM Nat := fun m =>
  (m.channels.size, { m with channels := m.channels.push { capacity } })

def pipeCapacity : Nat := 1 <<< 20

/-- A channel with an open file for reading and one for writing. -/
def newPipe : MachineM (Nat × Nat) := do
  let id ← newChannel (some pipeCapacity)
  let reader ← hold { target := .channel id, reads := true }
  let writer ← hold { target := .channel id, writes := true }
  return (reader, writer)

def holdText (s : String) : MachineM Nat :=
  hold { target := .nameless (ByteText.bytes s), reads := true }

def content (m : Machine) : Target → List UInt8
  | .channel id => ((m.channels[id]?.map (·.chunks)).getD []).reverse.flatten
  | .file l =>
    match m.files.at? l with
    | some { content := .file bytes, .. } => bytes
    | _ => []
  | .nameless bytes => bytes
  | .device _ | .directory _ => []

def update (i : Nat) (o : OpenFile) : MachineM Unit :=
  modify fun m => { m with opened := m.opened.setIfInBounds i o }

def splice (old : List UInt8) (offset : Nat) (new : List UInt8) : List UInt8 :=
  old.take offset ++ List.replicate (offset - old.length) 0 ++ new ++
    old.drop (offset + new.length)

def send (id : Nat) (bytes : List UInt8) : MachineM (Except FileError Unit) := do
  match (← get).channels[id]? with
  | none => return .error .badDescriptor
  | some c =>
    let size := c.size + bytes.length
    if c.capacity.any (· < size) then return .error .brokenPipe
    modify fun m => { m with
      channels := m.channels.setIfInBounds id { c with chunks := bytes :: c.chunks, size } }
    return .ok ()

def write (i : Nat) (bytes : List UInt8) : MachineM (Except FileError Unit) := do
  let m ← get
  match m.opened[i]? with
  | none => return .error .badDescriptor
  | some o =>
    if !o.writes then return .error .badDescriptor
    else if bytes.isEmpty then return .ok ()
    else match o.target with
    | .device .full => return .error .noSpace
    | .device _ => return .ok ()
    | .directory _ => return .error .badDescriptor
    | .channel id => send id bytes
    | .nameless old =>
      let offset := if o.appends then old.length else o.offset
      update i { o with
        target := .nameless (splice old offset bytes), offset := offset + bytes.length }
      return .ok ()
    | .file l =>
      match m.files.at? l with
      | some e =>
        let old := m.content o.target
        let offset := if o.appends then old.length else o.offset
        modify fun m => { m with files := m.files.overwrite l e (splice old offset bytes) }
        update i { o with offset := offset + bytes.length }
        return .ok ()
      | none => return .ok ()

def receive (id n : Nat) : MachineM (List UInt8) := do
  match (← get).channels[id]? with
  | none => return []
  | some c =>
    let all := c.chunks.reverse.flatten
    let rest := all.drop n
    modify fun m => { m with
      channels := m.channels.setIfInBounds id { c with
        chunks := if rest.isEmpty then [] else [rest], size := rest.length } }
    return all.take n

def read (i n : Nat) : MachineM (Except FileError (List UInt8)) := do
  let m ← get
  match m.opened[i]? with
  | none => return .error .badDescriptor
  | some o =>
    if !o.reads then return .error .badDescriptor
    else match o.target with
    | .device .zero | .device .full => return .ok (List.replicate n 0)
    | .device _ => return .ok []
    | .directory _ => return .error .isDirectory
    | .channel id => return .ok (← receive id n)
    | .file _ | .nameless _ =>
      let bytes := ((m.content o.target).drop o.offset).take n
      update i { o with offset := o.offset + bytes.length }
      return .ok bytes

def readLimit : Nat := 1 <<< 22

def readAll (i : Nat) : MachineM (Except FileError (List UInt8)) := read i readLimit

/-- Whether an open file can be read again from an earlier offset. -/
def seekable (m : Machine) (i : Nat) : Bool :=
  match m.opened[i]? with
  | some { target := .file _, .. } | some { target := .nameless _, .. } => true
  | _ => false

/-! ## Opening by name -/

structure Access where
  reads : Bool := false
  writes : Bool := false
  appends : Bool := false
  /-- Whether the file is made where there is none. -/
  creates : Bool := false
  /-- Whether the file is emptied. -/
  truncates : Bool := false
  /-- Whether there must be no file yet. -/
  exclusive : Bool := false

def Access.read : Access := { reads := true }

/-- To write a file from its start, whatever was in it before. -/
def Access.write : Access := { writes := true, creates := true, truncates := true }

def Access.append : Access := { writes := true, appends := true, creates := true }

def Access.both : Access := { reads := true, writes := true, creates := true }

def Access.fresh : Access := { Access.write with exclusive := true }

def openPath (c : ProcessContext) (path : String) (access : Access) :
    MachineM (Except FileError Nat) := do
  let m ← get
  let opened (target : Target) : MachineM (Except FileError Nat) := do
    let { reads, writes, appends, .. } := access
    return .ok (← hold { target, reads, writes, appends })
  let p := ByteText.path path
  match m.files.resolve c.cwd true p with
  | .error e =>
    let isMeant := access.creates && FileSystem.endsInSlash p
    return .error (if e = .notDirectory && isMeant then .isDirectory else e)
  | .ok (.vacant l asDirectory) =>
    if !access.creates then return .error .noEntry
    else if asDirectory then return .error .isDirectory
    else
      let mode := 0o666 &&& (0o777 ^^^ c.umask)
      match m.files.createAt l (.file []) mode with
      | .error e => return .error e
      | .ok files =>
        set { m with files }
        opened (.file l)
  | .ok (.found l e) =>
    if access.exclusive && access.creates then return .error .alreadyExists
    else if access.writes && e.content = .directory then return .error .isDirectory
    else if access.reads && !e.mayRead || access.writes && !e.mayWrite then
      return .error .permission
    else match e.content with
    | .directory => opened (.directory l)
    | .link _ => return .error .tooManyLinks
    | .device (.descriptor n) =>
      match c.descriptors.find? n with
      | none => return .error .noEntry
      | some i =>
        match m.opened[i]? with
        | some { target := .file l, .. } => opened (.file l)
        | _ => return .ok i
    | .device d => opened (.device d)
    | .file _ =>
      if access.truncates then set { m with files := m.files.overwrite l e [] }
      opened (.file l)

/-! ## Changes of names -/

def onFiles {α : Type} (task : FileTask α) : MachineM (Except FileError α) := fun m =>
  let (result, files) := task.exec m.files
  (result, { m with files })

def retarget (f : Location → Target) : MachineM Unit := modify fun m => { m with
  opened := m.opened.map fun o =>
    match o.target with
    | .file l => { o with target := f l }
    | _ => o }

/-- What an open file leads to when its name is taken away: to the same file under another name if
it has one. -/
def afterLoss (m : Machine) (l : Location) (e : FileEntry) : Target :=
  let isOther (d : Location × FileEntry) : Bool :=
    d.1 ≠ l && e.twin.isSome && d.2.twin = e.twin
  match m.files.entries.entries.find? isOther with
  | some (k, _) => .file k
  | none => .nameless (m.content (.file l))

/-- Takes a name of a file away. The file itself stays as long as it is open. -/
def unlink (cwd : Location) (p : Path) : MachineM (Except FileError Unit) := do
  let m ← get
  match m.files.resolveEntry cwd p, m.files.removeFile cwd p with
  | .ok (.found l e), .ok files =>
    let target := m.afterLoss l e
    retarget fun k => if k = l then target else .file k
    modify fun m => { m with files }
    return .ok ()
  | .error e, _ | _, .error e => return .error e
  | .ok (.vacant _ _), .ok _ => return .ok ()

def rename (cwd : Location) (p q : Path) : MachineM (Except FileError Unit) := do
  let m ← get
  match m.files.resolveEntry cwd p, m.files.resolveEntry cwd q, m.files.rename cwd p q with
  | .ok (.found src _), .ok place, .ok files =>
    let (dst, lost) := match place with
      | .found dst e => (dst, m.afterLoss dst e)
      | .vacant dst _ => (dst, .file dst)
    if files.clock ≠ m.files.clock then
      retarget fun k =>
        if src.isPrefixOf k then .file (dst ++ k.drop src.length)
        else if k = dst then lost
        else .file k
    modify fun m => { m with files }
    return .ok ()
  | .error e, _, _ | _, .error e, _ | _, _, .error e => return .error e
  | _, _, _ => return .ok ()

/-! ## Processes -/

def newProcess : MachineM Nat := fun m =>
  (m.nextProcess, { m with nextProcess := m.nextProcess + 1 })

def sendSignal (process : Nat) (s : Signal) : MachineM Unit :=
  modify fun m => { m with signals := m.signals ++ [(process, s)] }

def takeSignals (process : Nat) : MachineM (List Signal) := fun m =>
  let (mine, others) := m.signals.partition (·.1 = process)
  (mine.map (·.2), { m with signals := others })

def pass (time : Nat) : MachineM Unit := modify fun m =>
  { m with files := { m.files with clock := m.files.clock + time } }

end Machine

namespace ProcessContext

def getEnv? (c : ProcessContext) (name : String) : Option String :=
  c.env.findSome? fun s => if s.startsWith (name ++ "=") then some (s.drop (name.length + 1)).toString
    else none

def write (c : ProcessContext) (descriptor : Nat) (s : String) :
    MachineM (Except FileError Unit) :=
  match c.descriptors.find? descriptor with
  | some i => Machine.write i (ByteText.bytes s)
  | none => return .error .badDescriptor

/-- Writes to standard error; it does not matter whether that works. -/
def complain (c : ProcessContext) (s : String) : MachineM Unit := do discard <| c.write 2 s

def read (c : ProcessContext) (descriptor n : Nat) : MachineM (Except FileError String) :=
  match c.descriptors.find? descriptor with
  | some i => return (← Machine.read i n).map ByteText.ofBytes
  | none => return .error .badDescriptor

end ProcessContext

end ModularBuild
