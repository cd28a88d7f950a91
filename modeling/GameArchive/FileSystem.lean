/-
A file system of folders and files.

A location is the list of components from the root. A path name whose text is
too long, or has a zero in it, stands for nothing; all others are resolved
piece by piece: an empty piece and "." stay, ".." goes up, and every piece
needs a folder to stand in. Writing replaces a file or makes a new one in an
existing folder; folders are made from the root downwards, and those made
before a failure stay. Main statement: putting a node somewhere changes
nothing elsewhere.
-/
import GameArchive.Bytes
import GameArchive.PathName

namespace GameArchive

/-- The components from the root to a place. -/
abbrev Location := List String

/-- What can be at a location. -/
inductive Node where
  | folder
  | file (data : Bytes)
deriving DecidableEq, Repr

/-- The nodes below the root, and where relative names begin. -/
structure FileSystem where
  nodes : List (Location × Node)
  workingFolder : Location
deriving DecidableEq, Repr

namespace FileSystem

/-- Why a path name, or what it stands for, cannot be used. -/
inductive Fault where
  /-- There is nothing at that place. -/
  | missing
  /-- A file stands where a folder is needed. -/
  | notFolder
  /-- A folder stands where a file is needed. -/
  | isFolder
  /-- A path name, or a component of it, cannot be used as a name. -/
  | badName
  /-- A file ends before the bytes that are wanted of it. -/
  | cutShort
deriving DecidableEq, Repr

/-- What is wrong, for people. -/
def Fault.message : Fault → String
  | .missing => "no such file or folder"
  | .notFolder => "not a folder"
  | .isFolder => "is a folder"
  | .badName => "not a usable name"
  | .cutShort => "the file has become too short"

-- ================================================================= nodes

/-- The node at a location; the root is a folder. -/
def node? (fs : FileSystem) (location : Location) : Option Node :=
  if location.isEmpty then some .folder else fs.nodes.lookup location

/-- Nodes with one of them replaced, or added at the end. -/
def putNode (location : Location) (node : Node) :
    List (Location × Node) → List (Location × Node)
  | [] => [(location, node)]
  | entry :: rest =>
    if entry.1 = location then (location, node) :: rest
    else entry :: putNode location node rest

/-- The file system with a node at a location. -/
def put (fs : FileSystem) (location : Location) (node : Node) : FileSystem :=
  { fs with nodes := putNode location node fs.nodes }

/-- Putting a node at a location changes what is found there, and nothing else. -/
theorem lookup_putNode (location other : Location) (node : Node)
    (nodes : List (Location × Node)) :
    (putNode location node nodes).lookup other
      = if other = location then some node else nodes.lookup other := by
  induction nodes with
  | nil =>
    by_cases h : other = location
    · simp [putNode, h]
    · simp [putNode, List.lookup_cons, beq_false_of_ne h, h]
  | cons entry rest ih =>
    obtain ⟨l, n⟩ := entry
    by_cases hl : l = location
    · subst hl
      by_cases h : other = l
      · simp [putNode, h]
      · simp [putNode, List.lookup_cons, beq_false_of_ne h, h]
    · by_cases h : other = l
      · subst h
        simp [putNode, hl]
      · simp [putNode, List.lookup_cons, hl, beq_false_of_ne h, ih]

/-- After a node is put somewhere, it is there, and all else is as before. -/
theorem node?_put (fs : FileSystem) (location other : Location) (node : Node)
    (h : location ≠ []) :
    (fs.put location node).node? other
      = if other = location then some node else fs.node? other := by
  cases other with
  | nil => simp [node?, Ne.symm h]
  | cons name rest => simp [node?, put, lookup_putNode]

-- ============================================================ resolution

/-- The longest text of a path name, in bytes. -/
def longestText : Nat := 4095

/-- Whether a path name can stand for anything. -/
def isUsable (path : PathName) : Bool :=
  path.text.utf8ByteSize ≤ longestText && !path.text.toList.contains (Char.ofNat 0)

/-- The longest name of a node, in bytes. -/
def longestName : Nat := 255

/-- Whether a component can be the name of a node. -/
def isName (piece : String) : Bool := piece.utf8ByteSize ≤ longestName

/-- Where a piece leads from a location. -/
def enter (fs : FileSystem) (here : Location) (piece : String) : Except Fault Location :=
  match fs.node? here with
  | none => .error .missing
  | some (.file _) => .error .notFolder
  | some .folder =>
    if PathName.isIdle piece then .ok here
    else if piece = ".." then .ok here.dropLast
    else if isName piece then .ok (here ++ [piece])
    else .error .badName

/-- Where pieces lead from a location. -/
def walk (fs : FileSystem) : (here : Location) → List String → Except Fault Location
  | here, [] => .ok here
  | here, piece :: rest =>
    match fs.enter here piece with
    | .error fault => .error fault
    | .ok there => fs.walk there rest

/-- Where a path name begins. -/
def start (fs : FileSystem) (path : PathName) : Location :=
  if path.absolute then [] else fs.workingFolder

/-- The location that a path name stands for; there may be nothing yet. -/
def locate (fs : FileSystem) (path : PathName) : Except Fault Location :=
  if path.isEmpty then .error .missing
  else if isUsable path then fs.walk (fs.start path) path.pieces
  else .error .badName

-- =============================================================== reading

/-- The contents of a file. -/
def read (fs : FileSystem) (path : PathName) : Except Fault Bytes := do
  match fs.node? (← fs.locate path) with
  | some (.file data) => return data
  | some .folder => .error .isFolder
  | none => .error .missing

-- =============================================================== writing

/-- Writes a file. -/
def write (fs : FileSystem) (path : PathName) (data : Bytes) :
    Except Fault Unit × FileSystem :=
  match fs.locate path with
  | .error fault => (.error fault, fs)
  | .ok location =>
    match fs.node? location with
    | some .folder => (.error .isFolder, fs)
    | _ => (.ok (), fs.put location (.file data))

/-- Makes the folders that pieces lead through. -/
def makeFoldersFrom (fs : FileSystem) :
    (here : Location) → List String → Except Fault Unit × FileSystem
  | _, [] => (.ok (), fs)
  | here, piece :: rest =>
    match fs.enter here piece with
    | .error fault => (.error fault, fs)
    | .ok there =>
      match fs.node? there with
      | some .folder => fs.makeFoldersFrom there rest
      | some (.file _) => (.error .notFolder, fs)
      | none => (fs.put there .folder).makeFoldersFrom there rest

/-- Makes a folder and those it is in, as far as they are missing. -/
def makeFolders (fs : FileSystem) (path : PathName) : Except Fault Unit × FileSystem :=
  if isUsable path then fs.makeFoldersFrom (fs.start path) path.pieces
  else (.error .badName, fs)

/-- Writes a file after making the folders it is in. -/
def save (fs : FileSystem) (path : PathName) (data : Bytes) :
    Except Fault Unit × FileSystem :=
  match path.parent? with
  | none => fs.write path data
  | some parent =>
    match fs.makeFolders parent with
    | (.error fault, fs) => (.error fault, fs)
    | (.ok _, fs) => fs.write path data

/-- The empty file system; relative names begin at a folder of that
name. -/
def empty (workingFolder : String) : FileSystem :=
  ⟨[([workingFolder], .folder)], [workingFolder]⟩

end FileSystem
end GameArchive
