import CpioArchive.Creation.Run
import CpioArchive.FileSystem.Open
import CpioArchive.Newc.Encoder
/-!
# Creating archives

The whole job: an archive at an output path, made from the files at some source paths.  An `Order`
collects what is wanted; carrying it out checks the settings, creates the output and runs through
the sources.
-/

namespace CpioArchive

namespace FileSystem

/-- What a file system answers about its files. -/
def lookup (fs : FileSystem) : Lookup OpenFile where
  kindOf path := (fs.find false path).map fun id => (fs.node? id).elim .unknown (·.kind)
  openFile := fs.openForReading
  statusOf := fs.statusOf

/-- The file at a path, if it can be archived. -/
def resolve (fs : FileSystem) (settings : Settings) (path : Bytes) :
    Except SkipReason (Resolved OpenFile) :=
  Resolved.ofPath fs.lookup settings path

/-- Source paths as inputs, each resolved when its turn comes. -/
def inputs (settings : Settings) (paths : List Bytes) : List (Input FileSystem OpenFile) :=
  paths.map fun path => ⟨path, fun fs => fs.resolve settings path⟩

end FileSystem

/-- A writer of newc archives that copies through a buffer of the given size. -/
def Newc.writer {δ ε : Type} (ς : Type) [Destination δ ε] [Source ε ς] (bufferSize : Nat)
    (destination : δ) : Writer CopyBuffer δ ς :=
  .fresh (Newc.encoder (Counted δ) ς) (.ofSize bufferSize) destination

/-- What the creation of an archive comes to. -/
structure ArchiveRun where
  result : Except ArchiveError Report
  events : List Event
  visits : List Visit
  /-- The file system afterwards. -/
  files : FileSystem

/-- A run that ended before its first input. -/
def ArchiveRun.refused (files : FileSystem) (e : ArchiveError) : ArchiveRun :=
  ⟨.error e, [], [], files⟩

/-- Creates the archive `output` from the files at `sources`.  The settings are checked before the
output is created, and the output is created before the first source is looked at. -/
def createArchive (fs : FileSystem) (output : Bytes) (sources : List Bytes) (settings : Settings)
    (elapsed : Duration) : ArchiveRun :=
  match settings.validate with
  | .error e => .refused fs e
  | .ok () =>
    match DiskFile.create fs output with
    | .error cause => .refused fs (.cannotOpenDestination output cause)
    | .ok file =>
      let writer := Newc.writer (Metered OpenFile) settings.bufferSize file
      let creation := createOn writer (FileSystem.inputs settings sources) elapsed
      ⟨creation.result, creation.events, creation.visits, creation.destination.close⟩

/-- What an archive is to be made of. -/
structure Order where
  output : Option Bytes := none
  sources : List Bytes := []
  settings : Settings := {}

namespace Order

/-- Adds sources behind those there are. -/
def addSources (order : Order) (paths : List Bytes) : Order :=
  { order with sources := order.sources ++ paths }

/-- Carries an order out.  Without an output path there is nothing to do. -/
def carryOut (order : Order) (fs : FileSystem) (elapsed : Duration) : ArchiveRun :=
  match order.output with
  | none => .refused fs (.invalidSettings "output path not set")
  | some output => createArchive fs output order.sources order.settings elapsed

end Order

end CpioArchive
