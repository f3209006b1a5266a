import HerdBook.Engine.Basic
import HerdBook.Rules.Book
import HerdBook.Settings.Basic

/-!
# The engine of the herd book

An engine with the settings' limits and all rules of the herd book. Responding to a request is a
response that is given once per request.
-/

namespace HerdBook

variable {ω κ : Type}

/-- The engine of the herd book over a world. -/
def Engine.ofBook (settings : Settings) (lookup : Lookup → κ) (world : ω) : Engine ω κ :=
  let start : Engine ω κ :=
    .start world (.count settings.maxFlowEvents) (.count settings.maxRetainedFlows)
  { start.registerTerminal Rules.requesting "respond" (.str "request") with
    rules := Rules.all lookup }

end HerdBook
