import TradingHours.CommandLine.Program
/-!
The outer layer: lays out the part of the machine's disk that a request can reach, carries the
request out on it, and brings the changes back.
-/
namespace TradingHours

def CommandLine.Request.settingsFile : CommandLine.Request → List Disk.Path
  | .overview => []
  | .run a => a.common.config.toList.filterMap (·.value?)
  | .golden a => a.common.config.toList.filterMap (·.value?)

def CommandLine.Request.settings? (r : CommandLine.Request) (w : World) : Option Settings :=
  let work := match r with
    | .overview => none
    | .run a => some (CommandLine.settingsOf a.common.config (CommandLine.runSettings a))
    | .golden a => some (CommandLine.settingsOf a.common.config (CommandLine.goldenSettings a))
  work.bind fun work => (work.run.run w).1.toOption

/-- The paths that work under settings can reach. Of the output folder only what stands in it
counts. -/
def Settings.reach (s : Settings) : List Disk.Path :=
  let p := s.paths
  let output := Disk.Path.ofText p.output
  let named := p.markets.toList ++ p.definitions.toList ++ p.logFile.toList ++
    [p.fallbackDefinitions, p.aggregated, p.stateFile]
  output :: Output.minuteFolder output :: named.map .ofText

def CommandLine.Request.reach (r : CommandLine.Request) (s : Settings) : List Disk.Path :=
  match r with
  | .golden a =>
    s.reach ++ a.folder.value?.toList.flatMap fun p => [p, p.child "csv", p.child "props"]
  | _ => s.reach

def layReal (d : Disk) (p : Disk.Path) : IO Disk := do
  let real := (← IO.currentDir) / p.text
  if p.text.contains '\x00' then return d
  else if ← real.isDir then return d.lay p .folder
  else if ← real.pathExists then return d.lay p (.file (← IO.FS.readBinFile real))
  else return d

def layReach (d : Disk) (p : Disk.Path) : IO Disk := do
  let leading := (List.range (p.parts.length + 1)).map fun n => { p with parts := p.parts.take n }
  let d ← leading.foldlM layReal d
  let real := (← IO.currentDir) / p.text
  if p.text.contains '\x00' then return d
  else if ← real.isDir then
    (← real.readDir).foldlM (fun d inside => layReal d (p.child inside.fileName)) d
  else return d

def realText (place : Place) : String := "/" ++ "/".intercalate place.reverse

def bringBack (before after : Disk) : IO Unit := do
  for (place, entry) in after.entries do
    match entry, before.found? place with
    | .folder, none => IO.FS.createDirAll (realText place)
    | _, _ => pure ()
  for (place, entry) in after.entries do
    match entry, before.found? place with
    | .file new, some (.file old) =>
      unless new.data = old.data do IO.FS.writeBinFile (realText place) new
    | .file new, _ => IO.FS.writeBinFile (realText place) new
    | .folder, _ => pure ()
  for (place, entry) in before.entries do
    match entry, after.found? place with
    | .file _, none => IO.FS.removeFile (realText place)
    | _, _ => pure ()

def currentTime : IO Instant := do
  let stamp ← IO.FS.withTempFile fun _ path => return (← path.metadata).modified
  let start := Instant.startOfDay ⟨Instant.epochDay, by decide⟩
  return (start.shift? (stamp.sec * microsPerSecond + stamp.nsec.toNat / 1000)).getD start

def randomMark : IO String := do
  let letters := "abcdefghijklmnopqrstuvwxyz0123456789_".toList
  let drawn ← (List.replicate 8 ()).mapM fun _ => return letters.getD (← IO.rand 0 36) 'a'
  return String.ofList drawn

def currentWorld : IO World := do
  let home := Disk.Path.ofText (← IO.currentDir).toString
  return { disk := .empty home.parts.reverse, now := ← currentTime, mark := ← randomMark }

def worldFor (words : List String) : IO World := do
  let w ← currentWorld
  match CommandLine.request words with
  | .error _ => return w
  | .ok r =>
    let w := { w with disk := ← r.settingsFile.foldlM layReach w.disk }
    match r.settings? w with
    | none => return w
    | some s => return { w with disk := ← (r.reach s).foldlM layReach w.disk }

end TradingHours

open TradingHours in
def main (words : List String) : IO UInt32 := do
  let before ← worldFor words
  let (result, after) := (CommandLine.respond words).run.run before
  bringBack before.disk after.disk
  after.screen.forM fun line => IO.println line
  match result with
  | .error f =>
    IO.eprintln (f.name ++ ": " ++ f.message)
    return 1
  | .ok outcome =>
    outcome.complaints.forM fun line => IO.eprintln line
    match outcome.ending with
    | .code n | .usage n => return n.toUInt32
    | .failure f =>
      IO.eprintln (f.name ++ ": " ++ f.message)
      return 1
