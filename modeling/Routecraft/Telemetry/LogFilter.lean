import Routecraft.Telemetry.FieldPattern
import Routecraft.Text.Alphanumeric
import Routecraft.Text.Blank
import Routecraft.Text.Utf8

/-!
# Log filters

Which messages are logged: a list of directives between commas, each a level, or a target and spans with a level
for them. The check reads a directive without the blanks around it, but cuts its parts out of the text with the
blanks, at the same offsets: blanks in front shift the parts, and those behind belong to the last one.

* `LogFilter.check`: whether a text is a filter, and what is wrong with it.
-/

namespace Routecraft

inductive FilterFault where
  | directive
  | level
  | field
  deriving DecidableEq, Repr

def FilterFault.message : FilterFault → String
  | directive => "invalid filter directive"
  | level =>
    "error parsing level filter: expected one of \"off\", \"error\", \"warn\", \"info\", "
      ++ "\"debug\", \"trace\", or a number 0-5"
  | field => "invalid field filter"

namespace LogFilter

def levels : List String := ["off", "error", "warn", "info", "debug", "trace"]

/-- Whether a text is a level: a name in any case of its letters, or a number without a minus sign. -/
def isLevel (cs : List Char) : Bool :=
  levels.contains (String.ofList (cs.map Char.toLower)) ||
    ((Decimal.readIntIn? 0 5 cs).isSome && cs.head? != some '-')

/-- Whether a target may start with a character. -/
def startsTarget (c : Char) : Bool := c == '-' || c == ':' || c == '_' || Text.isAlphanumeric c

/-- Whether a text is a field of a span, with or without its value. -/
def isField (cs : List Char) : Bool :=
  match cs.dropWhile (· != '=') with
  | _ :: value => FieldPattern.isFieldValue (value.takeWhile (· != '='))
  | [] => true

/-- Checks the level at an offset of a directive. None at all stands for every level. -/
def checkLevel (whole : List Char) (offset : Nat) : Except FilterFault Unit :=
  match Text.splitBytes? offset whole with
  | some (_, []) => .ok ()
  | some (_, level) => if isLevel level then .ok () else .error .level
  | none => .error .directive

/-- Checks what is behind a span. -/
def checkBehindSpan (whole : List Char) (offset : Nat) : List Char → Except FilterFault Unit
  | [] => .ok ()
  | '=' :: _ => checkLevel whole (offset + 1)
  | _ => .error .directive

/-- Checks the field of a span and what is behind the span. -/
def checkField (whole : List Char) (offset : Nat) (cs : List Char) : Except FilterFault Unit :=
  let field := cs.takeWhile (· != '\x7d')
  let size := Text.byteSize field
  match cs.dropWhile (· != '\x7d') with
  | [] => .error .directive
  | _ :: rest =>
    if field.isEmpty then .error .directive
    else
      let cut := (Text.splitBytes? offset whole).bind fun (_, tail) => Text.splitBytes? size tail
      match cut with
      | none => .error .directive
      | some (field, _) =>
        if isField field then
          match rest with
          | ']' :: rest => checkBehindSpan whole (offset + size + 2) rest
          | _ => .error .directive
        else .error .field

/-- Checks a span, of which the bracket in front is read already, and what is behind it. -/
def checkSpan (whole : List Char) (offset : Nat) (cs : List Char) : Except FilterFault Unit :=
  let inSpan (c : Char) : Bool := c != ']' && c != '\x7b'
  let offset := offset + Text.byteSize (cs.takeWhile inSpan) + 1
  match cs.dropWhile inSpan with
  | ']' :: rest => checkBehindSpan whole offset rest
  | _ :: rest => checkField whole offset rest
  | [] => .error .directive

/-- Checks a target, or a level alone, and what is behind it. -/
def checkTarget (whole cs : List Char) : Except FilterFault Unit :=
  let inTarget (c : Char) : Bool := c != '=' && c != '['
  let offset := Text.byteSize (cs.takeWhile inTarget) + 1
  match cs.dropWhile inTarget with
  | '=' :: _ => checkLevel whole offset
  | _ :: rest => checkSpan whole offset rest
  | [] => .ok ()

def checkDirective (whole : List Char) : Except FilterFault Unit :=
  match Text.trimChars whole with
  | [] => .error .directive
  | '[' :: rest => checkSpan whole 1 rest
  | c :: rest => if startsTarget c then checkTarget whole (c :: rest) else .error .directive

/-- Checks a filter. There may be nothing between two commas. -/
def check (s : String) : Except FilterFault Unit :=
  ((s.splitOn ",").filter (!·.isEmpty)).forM fun directive => checkDirective directive.toList

end LogFilter

end Routecraft
