import HerdBook.Rule.Pattern
import HerdBook.Rule.Stage

/-!
# Rules

A rule watches a flow: whenever completed actions match its patterns, the frames of the match go
through its stages, and for each frame that is left its actions are carried out with their
arguments filled in.
-/

namespace HerdBook

/-- An action to carry out, with symbols in its arguments. -/
structure ActionTemplate where
  concept : String
  action : String
  args : Value
  deriving Inhabited

namespace ActionTemplate

/-- The full name of the action. -/
def name (template : ActionTemplate) : String := template.concept ++ "." ++ template.action

end ActionTemplate

/-- A rule over adapter codes `κ`: when the patterns match, run the stages, then carry out the
actions. -/
structure Rule (κ : Type) where
  name : String
  patterns : List Pattern
  stages : List (Stage κ)
  actions : List ActionTemplate

instance {κ : Type} : Inhabited (Rule κ) := ⟨⟨"", [], [], []⟩⟩

/-- An action with the arguments that a frame gives it. -/
abbrev Dispatch := ActionTemplate × Value

namespace Rule

variable {κ : Type}

/-- The rule itself, if it has a pattern to watch for. -/
def checked (rule : Rule κ) : Except Fault (Rule κ) :=
  if rule.patterns.isEmpty then
    .error (.raised "ValueError" s!"sync {rule.name} needs at least one when pattern")
  else .ok rule

/-- The actions with the arguments that the frame gives them, in order. -/
def fillActions (frame : Frame) : List ActionTemplate → Except Fault (List Dispatch)
  | [] => .ok []
  | template :: rest => do
    let args ← template.args.fill frame
    let others ← fillActions frame rest
    return (template, args) :: others

/-- The actions of each frame, frame by frame. It fails at the first symbol that cannot be used,
so no action is carried out before all arguments are known. -/
def dispatches (rule : Rule κ) : List Frame → Except Fault (List (List Dispatch))
  | [] => .ok []
  | frame :: rest => do
    let mine ← fillActions frame rule.actions
    let others ← rule.dispatches rest
    return mine :: others

end Rule

end HerdBook
