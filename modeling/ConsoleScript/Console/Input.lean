/-!
# Reading input

Input comes as bytes. It is cut into lines first, and each line is then read as UTF-8, so that the
lines before one that is no text can still be used.
-/

namespace ConsoleScript

inductive ReadError where
  | notText
  | notFound
  | isDirectory
  | other (description : String)

def ReadError.message : ReadError → String
  | notText => "stream did not contain valid UTF-8"
  | notFound => "No such file or directory (os error 2)"
  | isDirectory => "Is a directory (os error 21)"
  | other description => description

def decode (bytes : ByteArray) : Except ReadError String :=
  match String.fromUTF8? bytes with
  | some text => .ok text
  | none => .error .notText

/-- The text of a line whose bytes are given in reverse and without its line break. A line that ends
in a line break may have a carriage return before it. -/
def decodeLine (reversed : List UInt8) (broken : Bool) : Except ReadError String :=
  match broken, reversed with
  | true, 13 :: bytes => decode ⟨bytes.reverse.toArray⟩
  | _, bytes => decode ⟨bytes.reverse.toArray⟩

/-- The lines that some bytes spell, the first of them starting with the bytes `before`, which are
in reverse. A line break at the end starts no further line. -/
def inputLines (before : List UInt8) : List UInt8 → List (Except ReadError String)
  | [] => if before.isEmpty then [] else [decodeLine before false]
  | byte :: bytes =>
    if byte = 10 then decodeLine before true :: inputLines [] bytes
    else inputLines (byte :: before) bytes

end ConsoleScript
