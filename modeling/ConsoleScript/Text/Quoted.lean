import ConsoleScript.Text.CharClass

/-!
# Quoted text

The form in which a text is shown inside a message: between double quotes, on one line, with
every character that would not show as itself written as an escape.
-/

namespace ConsoleScript.Text

def hexadecimal (n : Nat) : String :=
  String.ofList (Nat.toDigits 16 n)

/-- One character of a quoted text. A single quote needs no escape. -/
def quotedChar (c : Char) : String :=
  if c = '"' then "\\\""
  else if c = '\\' then "\\\\"
  else if c = '\n' then "\\n"
  else if c = '\r' then "\\r"
  else if c = '\t' then "\\t"
  else if c.toNat = 0 then "\\0"
  else if isVisible c then c.toString
  else "\\u\x7b" ++ hexadecimal c.toNat ++ "\x7d"

def quoted (text : String) : String :=
  text.foldl (fun shown c => shown ++ quotedChar c) "\"" ++ "\""

end ConsoleScript.Text
