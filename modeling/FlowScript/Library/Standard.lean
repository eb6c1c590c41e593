import FlowScript.Library.Arithmetic
import FlowScript.Library.Containers
import FlowScript.Library.Control
import FlowScript.Library.Conversion
import FlowScript.Library.Dates
import FlowScript.Library.General
import FlowScript.Library.Texts

/-!
The functions that every script can call.
-/
namespace FlowScript.Library

def standard : Library :=
  .ofList (control ++ general ++ conversion ++ texts ++ containers ++ arithmetic ++ dates)

/-- What holds of the functions in each of the lists holds of all functions. -/
theorem forall_standard {P : Function → Prop} (inControl : ∀ f ∈ control, P f)
    (inGeneral : ∀ f ∈ general, P f) (inConversion : ∀ f ∈ conversion, P f)
    (inTexts : ∀ f ∈ texts, P f) (inContainers : ∀ f ∈ containers, P f)
    (inArithmetic : ∀ f ∈ arithmetic, P f) (inDates : ∀ f ∈ dates, P f) :
    ∀ f ∈ standard.functions, P f := by
  intro f listed
  have there := mem_of_ofList listed
  simp only [List.mem_append] at there
  rcases there with (((((here | here) | here) | here) | here) | here) | here
  · exact inControl f here
  · exact inGeneral f here
  · exact inConversion f here
  · exact inTexts f here
  · exact inContainers f here
  · exact inArithmetic f here
  · exact inDates f here

end FlowScript.Library
