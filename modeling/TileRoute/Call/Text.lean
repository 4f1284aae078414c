import TileRoute.Number.Style
import TileRoute.Call.Basic

/-!
# The text of calls and of their errors

A call is written as its name with the fixed word and the arguments in parentheses, separated by a
comma and a space. Every error has one message.
-/

namespace TileRoute

def Arg.text : Arg Float → String
  | .truth b => if b then "true" else "false"
  | .number x => messageStyle.text x
  | .word s => s

def Call.text (c : Call Float) : String :=
  c.action.name ++ "(" ++ ", ".intercalate (c.action.fixedToken?.toList ++ c.args.map Arg.text) ++ ")"

def Wanted.text : Wanted → String
  | .number => "number"
  | .truth => "true|false|number"

def CallError.message : CallError Float → String
  | .missingArgument a i => s!"{a.name}: missing argument #{i} <{a.parameter i}>"
  | .wrongType a i wanted found =>
    s!"{a.name}: argument <{a.parameter i}> expected {wanted.text}, got '{found.text}'"
  | .negative a i x =>
    s!"{a.name}: argument <{a.parameter i}> must not be negative, got {messageStyle.text x}"
  | .nonPositiveDuration x => s!"start_fade: duration must be positive, got {messageStyle.text x}"
  | .emptyRange least limit =>
    s!"random_wait: max_frames {limit} must exceed min_frames {least}"

end TileRoute
