import TradingHours.Disk.Tree
/-!
The file system calls. Each one can be refused by the state of the tree, or by the list of refusals
that the disk carries for its next calls; a refused call changes nothing else.
-/
namespace TradingHours.Disk

abbrev Call (α : Type) := ExceptT Fault (StateM Disk) α

def attempt (paths : List String) : Call Unit := do
  let d ← get
  match d.refusals with
  | [] => pure ()
  | none :: rest => set { d with refusals := rest }
  | some cause :: rest =>
    set { d with refusals := rest }
    throw (.refused cause paths)

def place (p : Path) : Call Place := do
  ofExcept ((← get).locate p)

def entryAt (p : Path) : Call Entry := do
  let here ← place p
  match (← get).found? here with
  | some entry => pure entry
  | none => throw (.refused .notFound [p.text])

def lookUp (p : Path) : Call Entry := do
  attempt [p.text]
  entryAt p

/-- Refusals that only say that nothing is there. -/
def Fault.meansAbsent : Fault → Bool
  | .refused .notFound _ => true
  | .refused .notFolder _ => true
  | .embeddedNul => true
  | _ => false

def exists? (p : Path) : Call Bool :=
  tryCatch (do let _ ← lookUp p; pure true) fun fault =>
    if fault.meansAbsent then pure false else throw fault

def isFolder? (p : Path) : Call Bool :=
  tryCatch (do
    match ← lookUp p with
    | .folder => pure true
    | .file _ => pure false) fun fault =>
    if fault.meansAbsent then pure false else throw fault

def read (p : Path) : Call ByteArray := do
  match ← lookUp p with
  | .file bytes => pure bytes
  | .folder => throw (.refused .isFolder [p.text])

def makeFolder (p : Path) : Call Unit := do
  attempt [p.text]
  let here ← place p
  match (← get).found? here with
  | some _ => throw (.refused .taken [p.text])
  | none => modify (·.put here .folder)

def ensureFolder (p : Path) : Call Unit :=
  tryCatch (makeFolder p) fun fault =>
    match fault with
    | .refused .notFound _ => throw fault
    | .refused _ _ => do unless ← isFolder? p do throw fault
    | .embeddedNul => throw fault

def ensureFolders (p : Path) : Call Unit :=
  tryCatch (makeFolder p) fun fault =>
    match fault with
    | .refused .notFound _ =>
      if p.parts = [] then throw fault
      else do
        ensureFolders p.parent
        ensureFolder p
    | .refused _ _ => do unless ← isFolder? p do throw fault
    | .embeddedNul => throw fault
termination_by p.parts.length
decreasing_by
  simp only [Path.parent, List.length_dropLast]
  have := List.length_pos_iff.mpr ‹¬p.parts = []›
  omega

def openEmpty (p : Path) : Call Place := do
  attempt [p.text]
  let here ← place p
  match (← get).found? here with
  | some .folder => throw (.refused .isFolder [p.text])
  | _ =>
    modify (·.put here (.file .empty))
    pure here

def fill (here : Place) (bytes : ByteArray) : Call Unit := do
  attempt []
  modify (·.put here (.file bytes))

def write (p : Path) (bytes : ByteArray) : Call Unit := do
  let here ← openEmpty p
  fill here bytes

def openToGrow (p : Path) : Call Unit := do
  attempt [p.text]
  let here ← place p
  match (← get).found? here with
  | some .folder => throw (.refused .isFolder [p.text])
  | some (.file _) => modify fun d => { d with growing := some here }
  | none => modify fun d => { d.put here (.file .empty) with growing := some here }

def openNew (p : Path) : Call Place := do
  attempt [p.text]
  let here ← place p
  match (← get).found? here with
  | some _ => throw (.refused .taken [p.text])
  | none =>
    modify (·.put here (.file .empty))
    pure here

def unlink (p : Path) : Call Unit := do
  match ← entryAt p with
  | .folder => throw (.refused .isFolder [p.text])
  | .file _ =>
    let here ← place p
    modify (·.erase here)

def unlinkIfThere (p : Path) : Call Unit :=
  tryCatch (unlink p) fun fault =>
    match fault with
    | .refused .notFound _ => pure ()
    | _ => throw fault

def endsInName (p : Path) : Bool :=
  p.parts.getLast? ≠ none && p.parts.getLast? ≠ some ".."

structure Move where
  entry : Entry
  source : Place
  target : Place

/-- The move of a file from a path to another one, over the file that may stand there. The folders
around both paths are walked to before the last name of either is looked at. -/
def moveOf (d : Disk) (source target : Path) : Except Cause Move := do
  let sourceFolder ← d.folderAround source
  let targetFolder ← d.folderAround target
  if !endsInName source || !endsInName target then .error .busy
  else
    let here ← d.walk sourceFolder [source.name]
    match d.found? here with
    | none => .error .notFound
    | some entry =>
      let there ← d.walk targetFolder [target.name]
      match d.found? there with
      | some .folder => .error .isFolder
      | _ => .ok ⟨entry, here, there⟩

def rename (source target : Path) : Call Unit := do
  attempt [source.text, target.text]
  let d ← get
  let refuse (cause : Cause) : Call Unit := throw (.refused cause [source.text, target.text])
  if source.hasNul || target.hasNul then throw .embeddedNul
  else if tooLong source || tooLong target then refuse .nameTooLong
  else
    match moveOf d source target with
    | .error cause => refuse cause
    | .ok move => set (d.move move.source move.target move.entry)

end TradingHours.Disk
