import FlowScript.CommandLine
import FlowScript.Text.Occurrence

/-!
Files held in memory, for runs that read nothing else. A name is looked up step by step, as a path
is in a file system: slashes divide the steps, one dot stays, two dots go up.
-/
namespace FlowScript.CommandLine

abbrev Path := List (List Char)

def pathSteps (name : List Char) : Path := Text.pieces '/' [] name

def staysPut (step : List Char) : Bool := step.isEmpty || step == ['.']

structure Folder where
  files : List (Path × List Char)
  deriving Repr

namespace Folder

def ofList (files : List (String × String)) : Folder :=
  ⟨files.map fun f => ((pathSteps f.1.toList).filter (!staysPut ·), f.2.toList)⟩

def file? (f : Folder) (path : Path) : Option (List Char) := f.files.lookup path

/-- A folder inside this one is there as soon as a file lies in it. -/
def contains (f : Folder) (path : Path) : Bool := f.files.any fun file => path.isPrefixOf file.1

/-- Where a lookup has come to. Nothing is known of what lies outside the folder. -/
inductive Place where
  | inside (path : Path)
  | outside
  deriving DecidableEq, Repr

def Place.up : Place → Place
  | .inside [] | .outside => .outside
  | .inside path => .inside path.dropLast

def stepLimit : Nat := 255
def nameLimit : Nat := 4095

def byteSize (cs : List Char) : Nat := (String.ofList cs).utf8ByteSize

def lookup (f : Folder) (place : Place) : Path → Except FileFault (List Char)
  | [] => .error .isDirectory
  | step :: rest =>
    if stepLimit < byteSize step then .error .nameTooLong
    else if staysPut step then f.lookup place rest
    else if step = ['.', '.'] then f.lookup place.up rest
    else
      match place with
      | .outside => .error .notFound
      | .inside path =>
        let next := path ++ [step]
        match f.file? next with
        | some contents => if rest.isEmpty then .ok contents else .error .notDirectory
        | none => if f.contains next then f.lookup (.inside next) rest else .error .notFound

def read (f : Folder) (name : String) : Except FileFault (List Char) :=
  let cs := name.toList
  if nameLimit < byteSize cs then .error .nameTooLong
  else f.lookup (if cs.head? = some '/' then .outside else .inside []) (pathSteps cs)

end Folder
end FlowScript.CommandLine
