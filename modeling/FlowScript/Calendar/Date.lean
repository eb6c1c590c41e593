import FlowScript.Calendar.Pattern
import FlowScript.Calendar.Reading

/-!
Dates as scripts see them: a moment and the precision it was made with. Whatever is finer than the
precision is dropped when a date is made, so equality and text both follow it.
-/
namespace FlowScript

structure Date where
  moment : Moment
  /-- Milliseconds if set, whole seconds otherwise. -/
  millis : Bool
  deriving DecidableEq, Repr

namespace Date

def make (m : Moment) (millis : Bool) : Date :=
  let nano := if millis then m.nano / Moment.nanosPerMilli * Moment.nanosPerMilli else 0
  ⟨{ m with nano }, millis⟩

def read? (cs : List Char) : Option Date :=
  (Calendar.read? (Text.trim cs)).map fun m => make m (m.nano != 0)

def layout (d : Date) : List Calendar.Item :=
  Calendar.isoDateItems ++ .literal ' ' :: Calendar.clockItems ++
    if d.millis then [.fraction 3] else []

def display (d : Date) : List Char := Calendar.write d.moment d.layout

def text (d : Date) : String := String.ofList d.display

def format? (d : Date) (pattern : List Char) : Option (List Char) :=
  Calendar.format? d.moment pattern

def epochSeconds (d : Date) : Float := Float.ofInt d.moment.epochMilli / 1000.0

def compare (a b : Date) : Ordering := a.moment.compare b.moment

def add? (d : Date) (span : Moment.Span) : Option Date :=
  (d.moment.add? span).map fun m => make m d.millis

def addMonths? (d : Date) (count : Int) : Option Date :=
  (d.moment.addMonths? count).map fun m => make m d.millis

end Date
end FlowScript
