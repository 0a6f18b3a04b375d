import ProcessCensus.Failure
import ProcessCensus.Text.Split
import ProcessCensus.Text.Utf8

/-!
The file tree of a system on which only `/proc` exists. Paths are lists of components from the root
of the file system.
-/

namespace ProcessCensus.Linux

/-- The components of an absolute path. -/
abbrev Path := List Bytes

/-- What stands at a path. -/
inductive Node where
  | file (content : Bytes)
  | link (target : Bytes)
  | directory
deriving DecidableEq

/-- The nodes below `/proc`, each with its path from there. -/
structure Tree where
  entries : List (Path × Node)

/-- A path as it is handed to the kernel or stands in a link. A slash at its end says that it is one
of a directory. -/
structure Location where
  components : Path
  /-- How many bytes the path takes. -/
  length : Nat
  asDirectory : Bool
deriving DecidableEq

namespace Location

/-- The components of a path in bytes. -/
def componentsOf (text : Bytes) : Path :=
  (Text.parts 0x2f text).filter fun component => !component.isEmpty

/-- The location that a path in bytes names. -/
def ofBytes (text : Bytes) : Location :=
  { components := componentsOf text
    length := text.length
    asDirectory := text.getLast? = some 0x2f }

/-- The location that a path in text names. -/
def ofText (text : List Char) : Location :=
  ofBytes (Text.Utf8.encode text)

/-- The location of a file of a process. -/
def ofProcess (pid : Int32) (file : String) : Location :=
  ofText s!"/proc/{pid}/{file}".toList

end Location

namespace Tree

/-- The error codes with which a path is refused. -/
def notFound : Int32 := 2
def notDirectory : Int32 := 20
def isDirectory : Int32 := 21
def nameTooLong : Int32 := 36
def tooManyLinks : Int32 := 40

/-- The longest component of a path, in bytes. -/
def maxName : Nat := 255

/-- The longest path, in bytes. -/
def maxPath : Nat := 4095

/-- How many links are followed on the way to a node. -/
def maxLinks : Nat := 40

/-- No nodes. -/
def empty : Tree := ⟨[]⟩

/-- The component under which the tree hangs. -/
def procName : Bytes := Text.Utf8.encode "proc".toList

/-- The node at a path of which no component is a link. -/
def nodeAt (tree : Tree) : Path → Option Node
  | [] => some .directory
  | top :: rest =>
    if top ≠ procName then none
    else if rest.isEmpty then some .directory
    else tree.entries.lookup rest

/-- Goes from the directory `here` along `rest`, as far as the first link: the path of the node that
is reached, which has to be a directory if `asDirectory` says so. How it goes on from a link is up to
`follow`, which is told where to start, what lies ahead and whether a directory has to be reached. -/
def walkTo (tree : Tree) (follow : Path → Path → Bool → Except Int32 Path) (here : Path) :
    Path → Bool → Except Int32 Path
  | [], _ => .ok here
  | name :: rest, asDirectory =>
    if name = Text.Utf8.encode ['.'] then walkTo tree follow here rest asDirectory
    else if name = Text.Utf8.encode ['.', '.'] then
      walkTo tree follow here.dropLast rest asDirectory
    else if maxName < name.length then .error nameTooLong
    else
      match tree.nodeAt (here ++ [name]) with
      | none => .error notFound
      | some .directory => walkTo tree follow (here ++ [name]) rest asDirectory
      | some (.file _) =>
        if rest.isEmpty && !asDirectory then .ok (here ++ [name]) else .error notDirectory
      | some (.link target) =>
        let start := if target.head? = some 0x2f then [] else here
        let next := Location.ofBytes target
        follow start (next.components ++ rest) (asDirectory || rest.isEmpty && next.asDirectory)

/-- Goes from a directory along a path, following no more than `links` links: the path of the node
that is reached, which is no link itself. It has to be a directory if that is asked for, or if a link
that is followed last says so. -/
def walk (tree : Tree) : Nat → Path → Path → Bool → Except Int32 Path
  | 0 => tree.walkTo fun _ _ _ => .error tooManyLinks
  | links + 1 => tree.walkTo (walk tree links)

/-- The path of the node that a location leads to. -/
def resolve (tree : Tree) (location : Location) : Except Int32 Path :=
  if maxPath < location.length then .error nameTooLong
  else tree.walk maxLinks [] location.components location.asDirectory

/-- Whether the bytes are the decimal digits of a number, perhaps after a minus sign. -/
def isNumber (name : Bytes) : Bool :=
  let digits := if name.head? = some 0x2d then name.tail else name
  !digits.isEmpty && digits.all fun b => 0x30 ≤ b && b ≤ 0x39

/-- Opening the link to the executable of a process leads to its image, whatever the link says. The
tree has the image beside the link. -/
def imageOf (location : Location) : Location :=
  match location.components with
  | [top, pid, file] =>
    if isNumber pid ∧ file = Text.Utf8.encode "exe".toList then
      { location with components := [top, pid, Text.Utf8.encode "exe.image".toList] }
    else location
  | _ => location

/-- The content of the file at a location. -/
def read (tree : Tree) (location : Location) : Except Refusal Bytes :=
  if location.components.any (·.contains 0) then .error .unspecified
  else
    match tree.resolve (imageOf location) with
    | .error code => .error (.code code)
    | .ok path =>
      match tree.nodeAt path with
      | some (.file content) => .ok content
      | some .directory => .error (.code isDirectory)
      | _ => .error (.code notFound)

/-- The content of the file at a location as text. -/
def readText (tree : Tree) (location : Location) : Except Refusal (List Char) := do
  match Text.Utf8.decode? (← tree.read location) with
  | some text => return text
  | none => throw .unspecified

/-- The text of the link at a location, if there is one. -/
def readLink (tree : Tree) (location : Location) : Option Bytes :=
  match tree.walk maxLinks [] location.components.dropLast true with
  | .ok directory =>
    match tree.nodeAt (directory ++ location.components.getLast?.toList) with
    | some (.link target) => some target
    | _ => none
  | .error _ => none

/-- The names in the directory at a path of which no component is a link. -/
def namesIn (tree : Tree) (path : Path) : List Bytes :=
  ([] :: tree.entries.map (·.1)).filterMap fun entry =>
    match (procName :: entry).getLast? with
    | some name => if (procName :: entry).dropLast = path then some name else none
    | none => none

/-- The names in the directory at a location, if there is one. -/
def list (tree : Tree) (location : Location) : Option (List Bytes) :=
  match tree.resolve location with
  | .ok path => if tree.nodeAt path = some .directory then some (tree.namesIn path) else none
  | .error _ => none

/-- Where a node at a path below `/proc` belongs: links on the way there are followed. -/
def place (tree : Tree) (here : Path) : Path → Path
  | [] => here
  | [name] => here ++ [name]
  | name :: rest =>
    match tree.walk maxLinks [] (procName :: here ++ [name]) true with
    | .ok (_ :: there) => tree.place there rest
    | _ => tree.place (here ++ [name]) rest

/-- The tree with a directory at a path below `/proc`, unless something stands there. -/
def ensureDirectory (tree : Tree) (path : Path) : Tree :=
  if path.isEmpty ∨ (tree.entries.lookup path).isSome then tree
  else ⟨tree.entries ++ [(path, .directory)]⟩

/-- The tree with the directories above a path below `/proc`. -/
def ensureParents (tree : Tree) (path : Path) : Tree :=
  (List.range path.length).foldl (fun tree depth => tree.ensureDirectory (path.take depth)) tree

/-- The tree with a node at a path below `/proc`, in place of what stood there. -/
def put (tree : Tree) (path : Path) (node : Node) : Tree :=
  let path := tree.place [] path
  let tree := tree.ensureParents path
  match node with
  | .directory => tree.ensureDirectory path
  | node => ⟨tree.entries.filter (·.1 ≠ path) ++ [(path, node)]⟩

/-- The tree without the node at a path below `/proc` and what is below it. -/
def remove (tree : Tree) (path : Path) : Tree :=
  let path := tree.place [] path
  ⟨tree.entries.filter fun (entry, _) => !path.isPrefixOf entry⟩

end Tree

end ProcessCensus.Linux
