import FormReader.Text.Quoted
import FormReader.Text.Utf8

/-! # File trees — the files a command sees

    A file tree holds files and folders under paths from its root, in the order
    in which they were made.  One of its folders is the working folder: a name
    that does not begin with a slash starts there.

    To the system a name is octets.  A name that holds a surrogate which stands
    for none is refused before the system sees it, and so is one with a zero
    octet; two names with the same octets are one.  What has octets is resolved
    as a file system does, step by step through folders, with `.` and `..`;
    above the root is the root.

    * `FileTree.read` — the content of a file.
    * `FileTree.create` — a file to be written, emptied if it exists.
    * `FileTree.changes` — the files directly in the working folder that another
      tree lacks or holds otherwise. -/

namespace FormReader

/-- Why a name cannot be opened. -/
inductive OpenFlaw where
  | notFound
  | notAFolder
  | isAFolder
  /-- The name, or a component of it, has more octets than a name may have. -/
  | tooLong
  /-- The name holds the octet zero, which ends a name. -/
  | nullInName
  /-- The name holds a surrogate that stands for no octet. -/
  | unencodable (e : Utf8.EncodeError)
  /-- The system refuses the name for a reason of its own, with its number. -/
  | refused (number : Nat) (reason : Text)
  deriving DecidableEq

/-- A name that cannot be opened. -/
structure OpenError where
  flaw : OpenFlaw
  name : Text
  deriving DecidableEq

namespace OpenError

/-- The message about a name that the system refuses. -/
def systemMessage (number : Nat) (reason name : Text) : Text :=
  .of "[Errno " ++ .ofNat number ++ .of "] " ++ reason ++ .of ": " ++ name.quoted

/-- The message of a name that cannot be opened. -/
def message (e : OpenError) : Text :=
  match e.flaw with
  | .notFound => systemMessage 2 (.of "No such file or directory") e.name
  | .notAFolder => systemMessage 20 (.of "Not a directory") e.name
  | .isAFolder => systemMessage 21 (.of "Is a directory") e.name
  | .tooLong => systemMessage 36 (.of "File name too long") e.name
  | .nullInName => .of "embedded null byte"
  | .unencodable e => e.message
  | .refused number reason => systemMessage number reason e.name

end OpenError

/-- What stands under a path. -/
inductive Entry where
  | file (content : Octets)
  | folder
  deriving DecidableEq

/-- A path: its components from the root on. -/
abbrev Path := List Octets

/-- Files and folders, and the folder that a command works in. -/
structure FileTree where
  /-- The working folder. -/
  working : Path
  entries : List (Path × Entry)
  deriving DecidableEq

namespace FileTree

/-- The folders that stand under the root of every system. -/
def systemFolders : List Octets :=
  ["bin", "boot", "dev", "etc", "home", "lib", "media", "mnt", "opt", "proc", "root", "run",
    "sbin", "srv", "sys", "tmp", "usr", "var"].map Utf8.ofString

/-- The tree of a system, with a working folder that has nothing in it. The working folder has an
    empty name, so no name leads into it from outside. The null device is a file as any other here:
    nobody reads again what is written to it. -/
def fresh : FileTree where
  working := [Utf8.ofString "tmp", []]
  entries :=
    systemFolders.map (fun name => ([name], .folder)) ++
      [([Utf8.ofString "dev", Utf8.ofString "null"], .file [])]

/-- What stands under a path. The working folder and the folders around it, the root among them,
    are always there. -/
def find? (t : FileTree) (path : Path) : Option Entry :=
  if path.isPrefixOf t.working then some .folder else t.entries.lookup path

/-- The tree with an entry set, at its place if the path is known and at the end if not. -/
def put (t : FileTree) (path : Path) (e : Entry) : FileTree :=
  if t.entries.any (fun known => known.1 = path) then
    { t with entries := t.entries.map fun known => if known.1 = path then (path, e) else known }
  else { t with entries := t.entries ++ [(path, e)] }

/-- The tree with an entry set under components from a folder on, and with the folders on the way
    made where they are missing. -/
def putBelow (t : FileTree) (folder : Path) (e : Entry) : List Octets → FileTree
  | [] => t
  | [last] => t.put (folder ++ [last]) e
  | c :: rest =>
    let inner := folder ++ [c]
    putBelow (if (t.find? inner).isNone then t.put inner .folder else t) inner e rest

/-! ## Names -/

/-- The octet that separates the components of a name. -/
def slash : UInt8 := 0x2F

/-- The component that stays in a folder. -/
def dot : Octets := Utf8.ofString "."

/-- The component that leads to the folder around. -/
def dotDot : Octets := Utf8.ofString ".."

/-- The components of a name, the one under construction in reverse. -/
def componentsOnto (current : Octets) : Octets → List Octets
  | [] => [current.reverse]
  | b :: rest =>
    if b = slash then current.reverse :: componentsOnto [] rest
    else componentsOnto (b :: current) rest

/-- The components of a name, separated by slashes. -/
def components (octets : Octets) : List Octets := componentsOnto [] octets

/-- The most octets that a name may have. -/
def nameLimit : Nat := 4095

/-- The most octets that a component of a name may have. -/
def componentLimit : Nat := 255

/-- The octets that the system is given for a name. -/
def octetsOfName (name : Text) : Except OpenFlaw Octets := do
  let octets ← (Utf8.encodeName name).mapError .unencodable
  if octets.contains 0 then .error .nullInName else .ok octets

/-- The tree with an entry set under a name in the working folder. -/
def place (t : FileTree) (name : Text) (e : Entry) : FileTree :=
  match octetsOfName name with
  | .error _ => t
  | .ok octets => t.putBelow t.working e (components octets)

/-- Follows components from a folder on. Every step but the last must lead to a folder. -/
def follow (t : FileTree) (folder : Path) : List Octets → Except OpenFlaw Path
  | [] => .ok folder
  | c :: rest =>
    if c = [] || c = dot then follow t folder rest
    else if c = dotDot then follow t folder.dropLast rest
    else if componentLimit < c.length then .error .tooLong
    else
      match t.find? (folder ++ [c]) with
      | none => .error .notFound
      | some .folder => follow t (folder ++ [c]) rest
      | some (.file _) => if rest.isEmpty then .ok (folder ++ [c]) else .error .notAFolder

/-- The folder in which the resolution of a name begins, and the components to be followed. -/
def start (t : FileTree) (name : Text) : Except OpenFlaw (Path × List Octets) := do
  let octets ← octetsOfName name
  if nameLimit < octets.length then .error .tooLong
  else if octets.isEmpty then .error .notFound
  else .ok (if octets.head? = some slash then [] else t.working, components octets)

/-! ## Files -/

/-- The content of a file, or the flaw of its name. -/
def content (t : FileTree) (name : Text) : Except OpenFlaw Octets := do
  let (folder, steps) ← t.start name
  let path ← t.follow folder steps
  match t.find? path with
  | some (.file octets) => .ok octets
  | some .folder => .error .isAFolder
  | none => .error .notFound

/-- The path of a file to be written, or the flaw of its name. A name that ends in a slash or in
    dots stands for a folder. -/
def target (t : FileTree) (name : Text) : Except OpenFlaw Path := do
  let (folder, steps) ← t.start name
  let plain := (steps.reverse.dropWhile List.isEmpty).reverse
  let folder ← t.follow folder plain.dropLast
  let last := plain.getLastD []
  match t.find? folder with
  | some .folder =>
    if plain.length < steps.length || last = dot || last = dotDot then .error .isAFolder
    else if componentLimit < last.length then .error .tooLong
    else
      match t.find? (folder ++ [last]) with
      | some .folder => .error .isAFolder
      | _ => .ok (folder ++ [last])
  | _ => .error .notAFolder

/-- The content of a file. -/
def read (t : FileTree) (name : Text) : Except OpenError Octets :=
  (t.content name).mapError (⟨·, name⟩)

/-- A file opened for writing: its path and the tree in which it is empty. -/
def create (t : FileTree) (name : Text) : Except OpenError (Path × FileTree) := do
  let path ← (t.target name).mapError (⟨·, name⟩)
  .ok (path, t.put path (.file []))

/-- The files directly in the working folder of `new` that `old` lacks or holds with another
    content. -/
def changes (old new : FileTree) : List (Octets × Octets) :=
  new.entries.filterMap fun (path, e) =>
    match path.getLast?, e with
    | some name, .file octets =>
      if path.dropLast = new.working && old.find? path ≠ some e then some (name, octets) else none
    | _, _ => none

end FileTree

end FormReader
