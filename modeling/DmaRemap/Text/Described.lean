import DmaRemap.Text.Hex
import DmaRemap.Text.Invisible

namespace DmaRemap.Text

/-- A value under the name of its type. -/
def wrapped (name value : String) : String :=
  name ++ "(" ++ value ++ ")"

/-- Named fields in their order. -/
def fields (name : String) (members : List (String × String)) : String :=
  name ++ " \x7b " ++ ", ".intercalate (members.map fun member => member.1 ++ ": " ++ member.2) ++
    " \x7d"

/-- The members of a set in their order. -/
def set (members : List String) : String :=
  "\x7b" ++ ", ".intercalate members ++ "\x7d"

/-- One character inside quotes. -/
def quotedChar (c : Char) : String :=
  match c with
  | '"' => "\\\""
  | '\\' => "\\\\"
  | '\n' => "\\n"
  | '\r' => "\\r"
  | '\t' => "\\t"
  | '\x00' => "\\0"
  | _ => if isInvisible c then "\\u\x7b" ++ digits 16 c.toNat ++ "\x7d" else c.toString

/-- A string in double quotes, with quotes, backslashes and invisible characters escaped. -/
def quoted (text : String) : String :=
  "\"" ++ String.join (text.toList.map quotedChar) ++ "\""

end DmaRemap.Text
