import SchemaAtlas.Analysis

/-!
# Files

A snapshot of a directory tree: what a path leads to, the files below it in a fixed order, and the
text of a file.
-/

namespace SchemaAtlas

inductive FileTree where
  | file (content : ByteArray)
  /-- A file that exists but cannot be read. -/
  | locked
  | directory (children : List (String × FileTree))

/-- What a path leads to. -/
inductive Found where
  | tree (t : FileTree)
  | missing
  /-- The path goes on below something that is no directory. -/
  | notADirectory

namespace FileTree

def emptyDirectory : FileTree := directory []

/-- Put a child at its place in the order of names. -/
def placeChild (name : String) (t : FileTree) : List (String × FileTree) → List (String × FileTree)
  | [] => [(name, t)]
  | (n, u) :: rest =>
    if name = n then (name, t) :: rest
    else if name < n then (name, t) :: (n, u) :: rest
    else (n, u) :: placeChild name t rest

/-- Put a tree at the end of a list of names, making the directories on the way. -/
def insert (t : FileTree) : (names : List String) → (root : FileTree) → FileTree
  | [], _ => t
  | name :: rest, directory children =>
    directory (placeChild name
      (insert t rest ((children.lookup name).getD emptyDirectory)) children)
  | name :: rest, _ => directory [(name, insert t rest emptyDirectory)]

/-- The steps of a path, as the slashes divide it. -/
def steps (path : String) : List String := path.splitOn "/"

/-- Empty steps and single points stay where they are. -/
def isIdle (step : String) : Bool := step = "" || step = "."

/-- The names on a path that leads straight down. -/
def names (path : String) : List String := (steps path).filter fun s => !isIdle s

/-- Follow a path. Every step has to start in a directory, also one that stays there, so nothing may
come after the name of a file. Two points lead back up, and never above the root; `above` are the
directories passed on the way. -/
def follow (above : List FileTree) (t : FileTree) : List String → Found
  | [] => .tree t
  | name :: rest =>
    match t with
    | directory children =>
      if isIdle name then follow above t rest
      else if name = ".." then
        match above with
        | [] => follow [] t rest
        | parent :: higher => follow higher parent rest
      else
        match children.lookup name with
        | some child => follow (t :: above) child rest
        | none => .missing
    | _ => .notADirectory

/-- What a path leads to. -/
def find (root : FileTree) (path : String) : Found :=
  if path = "" then .missing else follow [] root (steps path)

/-- The label of a child, with one slash in between. -/
def childLabel (label name : String) : String :=
  if label.toList.getLast? = some '/' then label ++ name else label ++ "/" ++ name

mutual

/-- The files at and below a tree, depth first. -/
def files (label : String) : FileTree → List (String × FileTree)
  | file content => [(label, file content)]
  | locked => [(label, locked)]
  | directory children => filesOf label children

def filesOf (label : String) : List (String × FileTree) → List (String × FileTree)
  | [] => []
  | (name, t) :: rest => t.files (childLabel label name) ++ filesOf label rest

end

/-- The text of a file. -/
def content (path : String) : FileTree → Except ReadFailure String
  | file bytes =>
    match String.fromUTF8? bytes with
    | some s => .ok s
    | none => .error (.notText path)
  | locked => .error (.unreadable path)
  | directory _ => .error (.notAFile path)

end FileTree

namespace Found

/-- The text of the file that was found. -/
def content (path : String) : Found → Except ReadFailure String
  | tree t => t.content path
  | missing | notADirectory => .error (.notAFile path)

end Found

end SchemaAtlas
