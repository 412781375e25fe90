import Marginalia.Path

/-!
File trees as values. A tree is a set of entries, each at the names that lead to it from the root.
Files carry a serial number, so that a file which is open can be told from another one that has come
to its place.
-/

namespace Marginalia

/-- The names that lead from the root to an entry. -/
abbrev Location := List String

/-- What a file holds: text, or bytes that are none. -/
inductive Content where
  | text (s : String)
  | bytes (raw : List UInt8)
  deriving DecidableEq, Repr

/-- Bytes as text, where they are text. -/
def Content.ofBytes (raw : List UInt8) : Content :=
  match String.fromUTF8? ⟨raw.toArray⟩ with
  | some s => text s
  | none => bytes raw

/-- The bytes of a content. -/
def Content.raw : Content → ByteArray
  | text s => s.toByteArray
  | bytes raw => ⟨raw.toArray⟩

/-- The length in bytes. -/
def Content.size : Content → Nat
  | text s => s.utf8ByteSize
  | bytes raw => raw.length

/-- The content with text behind it. -/
def Content.append : Content → String → Content
  | text s, more => text (s ++ more)
  | bytes raw, more => bytes (raw ++ more.toByteArray.toList)

/-- What can stand at a place. -/
inductive Entry where
  | file (serial : Nat) (content : Content)
  | directory
  | link (target : String)
  deriving DecidableEq, Repr

/-- Why a tree cannot do what it is asked for. -/
inductive FileError where
  | notFound
  | alreadyThere
  | notADirectory
  | isADirectory
  | tooManyLinks
  | nameTooLong
  | busy
  | zeroInName
  | notText
  deriving DecidableEq, Repr

/-- The wording of a file error. -/
def FileError.message : FileError → String
  | notFound => "No such file or directory (os error 2)"
  | busy => "Device or resource busy (os error 16)"
  | alreadyThere => "File exists (os error 17)"
  | notADirectory => "Not a directory (os error 20)"
  | isADirectory => "Is a directory (os error 21)"
  | nameTooLong => "File name too long (os error 36)"
  | tooManyLinks => "Too many levels of symbolic links (os error 40)"
  | zeroInName => "file name contained an unexpected NUL byte"
  | notText => "stream did not contain valid UTF-8"

/-- Files and directories. -/
structure FileTree where
  entries : List (Location × Entry)
  /-- The serial number of the next file. -/
  nextSerial : Nat
  /-- Where relative paths start. -/
  workingDirectory : Location
  deriving Repr

namespace FileTree

/-- The places on the way to a place, itself the last one. -/
def fronts (l : Location) : List Location := (List.range l.length).map fun i => l.take (i + 1)

/-- A tree with nothing but its working directory. -/
def empty (workingDirectory : Location) : FileTree :=
  ⟨(fronts workingDirectory).map (·, .directory), 0, workingDirectory⟩

/-- What stands at a place; the root is always a directory. -/
def at? (t : FileTree) (l : Location) : Option Entry :=
  if l = [] then some .directory else t.entries.lookup l

/-- The tree with an entry at a place, whatever stood there. -/
def put (t : FileTree) (l : Location) (e : Entry) : FileTree :=
  { t with entries := (l, e) :: t.entries.filter (·.1 != l) }

/-- The tree with nothing at a place. -/
def erase (t : FileTree) (l : Location) : FileTree :=
  { t with entries := t.entries.filter (·.1 != l) }

/-! ### Finding places -/

/-- Where a path leads: a place, and how the last path that was followed to it ends. -/
structure Destination where
  place : Location
  ending : Path.Ending

/-- A name is too long for a file system. -/
def isLong (name : String) : Bool := name.utf8ByteSize > 255

/-- How the way ends if a link with a target stands at its end. -/
def endingThrough (target : String) (rest : List String) (e : Path.Ending) : Path.Ending :=
  if rest.isEmpty && e == .name then Path.ending target else e

/-- Goes from `here` along names. At a link, the way goes on with `expand`; at the last name only
if `follow` says so of the ending. The last name need not exist. -/
def goAlong (t : FileTree) (follow : Path.Ending → Bool) (e : Path.Ending)
    (expand : Location → List String → Path.Ending → Except FileError Destination) :
    Location → List String → Except FileError Destination
  | here, [] => .ok ⟨here, e⟩
  | here, name :: rest =>
    let isLast := rest.isEmpty && e != .dots
    if name = ".." then goAlong t follow e expand here.dropLast rest
    else if isLong name then .error .nameTooLong
    else
      let place := here ++ [name]
      match t.at? place with
      | none => if isLast then .ok ⟨place, e⟩ else .error .notFound
      | some .directory => goAlong t follow e expand place rest
      | some (.file ..) => if isLast then .ok ⟨place, e⟩ else .error .notADirectory
      | some (.link target) =>
        if isLast && !follow e then .ok ⟨place, e⟩
        else
          let base := if Path.isAbsolute target then [] else here
          expand base (Path.names target ++ rest) (endingThrough target rest e)

/-- Goes along names through at most `links` links. -/
def goFrom (t : FileTree) (follow : Path.Ending → Bool) :
    (links : Nat) → Location → List String → Path.Ending → Except FileError Destination
  | 0, here, names, e => goAlong t follow e (fun _ _ _ => .error .tooManyLinks) here names
  | links + 1, here, names, e => goAlong t follow e (goFrom t follow links) here names

/-- How many links a path may lead through. -/
def maxLinks : Nat := 40

/-- How many bytes a path may have. -/
def maxLength : Nat := 4095

/-- The place where a path starts. -/
def startOf (t : FileTree) (path : String) : Location :=
  if Path.isAbsolute path then [] else t.workingDirectory

/-- A path that can be asked for. -/
def checkPath (path : String) : Except FileError Unit :=
  if path.toList.any (·.toNat == 0) then .error .zeroInName
  else if path = "" then .error .notFound
  else if path.utf8ByteSize > maxLength then .error .nameTooLong
  else .ok ()

/-- Where a path leads, a link at its end followed if `follow` says so of the ending. -/
def go (t : FileTree) (follow : Path.Ending → Bool) (path : String) :
    Except FileError Destination := do
  checkPath path
  goFrom t follow maxLinks (t.startOf path) (Path.names path) (Path.ending path)

/-- Where a path leads, all links followed to their ends. -/
def locate (t : FileTree) (path : String) : Except FileError Destination := t.go (fun _ => true) path

/-- Where a path leads, a link at its end left alone. -/
def locateLast (t : FileTree) (path : String) : Except FileError Destination :=
  t.go (fun _ => false) path

/-- What stands where a path leads, and its place; behind a slash at the end of a path only a
directory can. -/
def find (t : FileTree) (path : String) : Except FileError (Location × Entry) := do
  let d ← t.locate path
  match t.at? d.place with
  | none => throw .notFound
  | some .directory => return (d.place, .directory)
  | some e => if d.ending = .name then return (d.place, e) else throw .notADirectory

/-- What stands where a path leads. -/
def stat (t : FileTree) (path : String) : Except FileError Entry := (t.find path).map (·.2)

/-- The path without links, dots and slashes to spare to what stands where a path leads. -/
def canonical (t : FileTree) (path : String) : Except FileError String :=
  (t.find path).map fun (place, _) => Path.ofNames "/" place

/-- The path leads to a directory. -/
def isDirectory (t : FileTree) (path : String) : Bool :=
  match t.stat path with
  | .ok .directory => true
  | _ => false

/-- The path leads to a file. -/
def isFile (t : FileTree) (path : String) : Bool :=
  match t.stat path with
  | .ok (.file ..) => true
  | _ => false

/-! ### Reading and writing -/

/-- The text of a file. -/
def readText (t : FileTree) (path : String) : Except FileError String := do
  match ← t.stat path with
  | .file _ (.text s) => return s
  | .file _ (.bytes _) => throw .notText
  | _ => throw .isADirectory

/-- Opens the file at a path for writing, or a new one: its serial number. -/
def openFile (t : FileTree) (path : String) : Except FileError (Nat × FileTree) := do
  let d ← t.go (· != .slash) path
  if d.ending = .slash then throw .isADirectory
  match t.at? d.place with
  | some (.file serial _) => return (serial, t)
  | none =>
    return (t.nextSerial,
      { t.put d.place (.file t.nextSerial (.text "")) with nextSerial := t.nextSerial + 1 })
  | some _ => throw .isADirectory

/-- The tree in which the file with a serial number has been changed, if it is still there. -/
def change (t : FileTree) (serial : Nat) (f : Content → Content) : FileTree :=
  { t with entries := t.entries.map fun (l, e) =>
      match e with
      | .file n c => (l, if n = serial then .file n (f c) else .file n c)
      | e => (l, e) }

/-- Writes a text to a path. -/
def writeText (t : FileTree) (path text : String) : Except FileError FileTree := do
  let (serial, t) ← t.openFile path
  return t.change serial fun _ => .text text

/-- Moves a file or a link to another path, over what stands there unless it is a directory. -/
def rename (t : FileTree) (source target : String) : Except FileError FileTree := do
  let old ← t.locateLast source
  let new ← t.locateLast target
  if old.ending = .dots || new.ending = .dots then throw .busy
  match t.at? old.place, t.at? new.place with
  | none, _ => throw .notFound
  | some .directory, _ => throw .isADirectory
  | some e, there =>
    if old.ending = .slash || new.ending = .slash then throw .notADirectory
    else if there = some .directory then throw .isADirectory
    else if old.place = new.place then return t
    else return (t.erase old.place).put new.place e

/-- Removes a file or a link. -/
def remove (t : FileTree) (path : String) : Except FileError FileTree := do
  let d ← t.locateLast path
  match t.at? d.place with
  | none => throw .notFound
  | some .directory => throw .isADirectory
  | some _ => if d.ending = .slash then throw .notADirectory else return t.erase d.place

/-- Puts a link to a target at a path where nothing stands. -/
def makeLink (t : FileTree) (target path : String) : Except FileError FileTree := do
  let d ← t.locateLast path
  match t.at? d.place with
  | some _ => throw .alreadyThere
  | none => if d.ending = .name then return t.put d.place (.link target) else throw .notFound

/-- Writes a text to a path by way of a temporary file. A text that cannot be moved to its place is
removed again. -/
def replaceBy (t : FileTree) (path temporary text : String) : Except FileError Unit × FileTree :=
  match t.writeText temporary text with
  | .error e => (.error e, t)
  | .ok written =>
    match written.rename temporary path with
    | .ok moved => (.ok (), moved)
    | .error e => (.error e, (written.remove temporary).toOption.getD written)

/-! ### Directories -/

/-- Makes one directory, or finds it made. -/
def makeDirectory (t : FileTree) (path : String) : Except FileError FileTree := do
  let d ← t.locateLast path
  match t.at? d.place with
  | none => return t.put d.place .directory
  | some _ => if t.isDirectory path then return t else throw .alreadyThere

/-- Makes the directory of these names, given in reverse, and those above it that are missing. -/
def makeDirectories (t : FileTree) (start : String) : List String → Except FileError FileTree
  | [] => .ok t
  | name :: above =>
    let path := Path.ofNames start (name :: above).reverse
    match t.makeDirectory path with
    | .error .notFound => do
      let t ← makeDirectories t start above
      t.makeDirectory path
    | made => made

/-- Makes the directory in which the last name of a path is to stand. -/
def makeParents (t : FileTree) (path : String) : Except FileError FileTree :=
  t.makeDirectories path (Path.names path).reverse.tail

/-- What is put at a place is found there. -/
theorem at?_put_self (t : FileTree) {l : Location} (e : Entry) (h : l ≠ []) :
    (t.put l e).at? l = some e := by
  simp [at?, put, h]

end FileTree

end Marginalia
