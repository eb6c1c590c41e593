import FlowScript.Value

/-!
The global variables that every run knows from the start.
-/
namespace FlowScript

inductive SystemType where
  | boolean | integer | string | array
  deriving DecidableEq, Repr

def SystemType.name : SystemType → String
  | boolean => "Boolean"
  | integer => "Integer"
  | string => "String"
  | array => "Array"

structure SystemVariable where
  name : String
  type : SystemType
  default : Option String
  deriving DecidableEq, Repr

namespace SystemVariable

def maxIterations : String := "$jitterbit.scripting.while.max_iterations"

def all : List SystemVariable :=
  [⟨maxIterations, .integer, some "50000"⟩,
   ⟨"$jitterbit.scripting.db.max_rows", .integer, some "10000"⟩,
   ⟨"$jitterbit.scripting.db.auto_commit", .boolean, some "true"⟩,
   ⟨"$jitterbit.scripting.hex.enable_null_character", .boolean, some "false"⟩,
   ⟨"$jitterbit.operation.name", .string, none⟩,
   ⟨"$jitterbit.operation.guid", .string, none⟩,
   ⟨"$jitterbit.operation.error", .string, none⟩,
   ⟨"$jitterbit.operation.last_error", .string, none⟩,
   ⟨"$jitterbit.source.filenames", .array, none⟩,
   ⟨"$jitterbit.source.locate_files", .array, some "\x7b\x7d"⟩,
   ⟨"$jitterbit.target.file_share.create_directories", .boolean, some "false"⟩,
   ⟨"$jitterbit.api.request.timeout", .integer, some "30"⟩]

/-- The value before the first assignment, if the variable has one. Arrays never do. -/
def initial? (v : SystemVariable) : Option Value :=
  match v.default with
  | none => none
  | some text =>
    match v.type with
    | .boolean => some (.bool (Text.sameIgnoringCase text.toList "true".toList))
    | .integer => (Number.read? text.toList).map .number
    | .string => some (.text text)
    | .array => none

def ignoresDefault (v : SystemVariable) : Bool := v.type == .array && v.default.isSome

end SystemVariable
end FlowScript
