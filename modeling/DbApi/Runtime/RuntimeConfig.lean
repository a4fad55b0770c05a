import DbApi.Library.Bytes
import DbApi.Library.Search

namespace DbApi.Runtime
open Library

def serverRuntimePathMax : Nat := 1024

def errorSize : Nat := 256

inductive FileKind where
  | directory
  | other
deriving DecidableEq

/-- What `stat` finds at a path. -/
abbrev FileSystem := Bytes → Option FileKind

def colon : UInt8 := 58

def isSeparator (value : UInt8) : Bool := value == 47 || value == 92

def endsWithSeparator (path : Bytes) : Bool := path.getLast?.any isSeparator

/-- A drive root such as `C:/` keeps its separator. -/
def trimTrailingSeparators (path : Bytes) : Bytes :=
  if 1 < path.length ∧ endsWithSeparator path = true then
    if path.length = 3 ∧ path[1]? = some colon then path
    else trimTrailingSeparators path.dropLast
  else path
termination_by path.length
decreasing_by
  simp only [List.length_dropLast]
  omega

/-- The last loop of `parent_directory`. -/
def shortenSeparators (path : Bytes) : Bytes :=
  if 1 < path.length ∧ endsWithSeparator path = true then shortenSeparators path.dropLast
  else path
termination_by path.length
decreasing_by
  simp only [List.length_dropLast]
  omega

/-- What is returned, and what the path is afterwards. -/
def parentDirectory (path : Bytes) : Bool × Bytes :=
  if path = [] then (false, path)
  else
    let path := trimTrailingSeparators path
    let front := path.rdropWhile (fun value => !isSeparator value)
    if front = [] then (false, path)
    else if front.length = 3 ∧ path[1]? = some colon then (false, front)
    else (true, shortenSeparators front)

def joinPath (left right : Bytes) : Except Bytes Bytes :=
  let tail := right.dropWhile isSeparator
  let joined :=
    if left ≠ [] ∧ endsWithSeparator left = false then left ++ ascii "/" ++ tail else left ++ tail
  if joined.length < serverRuntimePathMax then .ok joined
  else
    .error (clip errorSize (ascii "path is too long while joining '" ++ left ++ ascii "' and '" ++
      right ++ ascii "'"))

def directoryExists (files : FileSystem) (path : Bytes) : Bool :=
  path != [] && files path == some .directory

def fileExists (files : FileSystem) (path : Bytes) : Bool := path != [] && (files path).isSome

/-- One of the three tests of `is_repo_root`. A path that is too long fails it. -/
def holdsEntry (holds : Bytes → Bool) (candidate entry : Bytes) : Bool :=
  match joinPath candidate entry with
  | .ok path => holds path
  | .error _ => false

def isRepoRoot (files : FileSystem) (candidate : Bytes) : Bool :=
  holdsEntry (fileExists files) candidate (ascii "PLAN.md") &&
    holdsEntry (directoryExists files) candidate (ascii "SERVER-RUNTIME") &&
      holdsEntry (directoryExists files) candidate (ascii "week8-team7-db-api")

/-- Where the loop of `find_repo_root_from_start` goes on. -/
def nextDirectory (current : Bytes) : Option Bytes :=
  match parentDirectory current with
  | (true, parent) => if parent = [] then none else some parent
  | (false, _) => none

/-- The directories the loop tests, and the one that is copied to `repo_root` when
the function returns 1. The result is `none` when the loop needs more rounds. -/
def findRepoRootFromStart (files : FileSystem) (rounds : Nat) (startPath : Bytes) :
    Option (Search Bytes) :=
  if startPath = [] ∨ serverRuntimePathMax ≤ startPath.length then
    some { visited := [], result := none }
  else search nextDirectory (isRepoRoot files) rounds (trimTrailingSeparators startPath)

end DbApi.Runtime
