import ScriptAudit.Encoding.Basic
import ScriptAudit.Rule.Basic

namespace ScriptAudit

/-- What is thought of bytes that are no UTF-8: the name of an encoding, nothing, or a failure to think. An encoding
that `Encoding` does not have is given by what it makes of the bytes. -/
inductive Guess where
  | encoding (name : Option String)
  | foreign (text : Option (List Char))
  | failed (failure : Failure)
  deriving DecidableEq, Repr

namespace Guess

def marks : List (Bytes × String) :=
  [([0xEF, 0xBB, 0xBF], "UTF-8-SIG"), ([0xFF, 0xFE, 0, 0], "UTF-32"), ([0, 0, 0xFE, 0xFF], "UTF-32"),
   ([0xFE, 0xFF, 0, 0], "X-ISO-10646-UCS-4-3412"), ([0, 0, 0xFF, 0xFE], "X-ISO-10646-UCS-4-2143"),
   ([0xFF, 0xFE], "UTF-16"), ([0xFE, 0xFF], "UTF-16")]

/-- A stand-in for a detector that would look at all the bytes: it goes by the mark at the start and by nothing
else. -/
def standIn (data : Bytes) : Guess := .encoding ((marks.find? fun m => m.1.isPrefixOf data).map (·.2))

end Guess

namespace Bytes

/-- The bytes that a guess is asked about: those without a mark that are no UTF-8. -/
def puzzling? (data : Bytes) : Option Bytes :=
  match Utf8.decode (Utf8.withoutMark data) with
  | .ok _ => none
  | .error _ => some (Utf8.withoutMark data)

/-- The text of bytes: UTF-8 without a mark, else what the guess makes of them. -/
def text (guess : Bytes → Guess) (data : Bytes) : Except Failure (Option (List Char)) :=
  match Utf8.decode (Utf8.withoutMark data) with
  | .ok text => .ok (some text)
  | .error _ =>
    match guess (Utf8.withoutMark data) with
    | .failed failure => .error failure
    | .foreign text => .ok text
    | .encoding none => .ok none
    | .encoding (some name) => .ok ((Encoding.ofName? name).bind fun e => e.decode? (Utf8.withoutMark data))

end Bytes

end ScriptAudit
