import IntcodeMachine.Text.Decimal
import IntcodeMachine.Text.Pieces
import IntcodeMachine.Text.Quoted

/-!
# Program listings

A listing is a program image as text: decimal integers separated by commas, with
blanks around each of them, a comma at the end if one likes, and lines that
start with `#` as comments. `parse` answers the image or the first item that is
no cell.
-/
namespace IntcodeMachine

/-- Why the text of a file cannot be had. -/
inductive ReadFailure
  | missing
  | isDirectory
  | notDirectory
  | nameTooLong
  | notUtf8
deriving DecidableEq, Repr

/-- The wording of a read failure. -/
def ReadFailure.message : ReadFailure → String
  | .missing => "No such file or directory (os error 2)"
  | .isDirectory => "Is a directory (os error 21)"
  | .notDirectory => "Not a directory (os error 20)"
  | .nameTooLong => "File name too long (os error 36)"
  | .notUtf8 => "stream did not contain valid UTF-8"

/-- Why there is no image: the file cannot be read, the item at a position (counted from one) is
not a cell, or there is no item at all. -/
inductive ListingError
  | unreadable (cause : ReadFailure)
  | notInteger (position : Nat) (item : List Char) (cause : Decimal.ReadError)
  | empty
deriving DecidableEq, Repr

/-- The wording of a listing error. -/
def ListingError.message : ListingError → String
  | .unreadable cause => "I/O error: " ++ cause.message
  | .notInteger position item cause =>
    "item " ++ Decimal.text position ++ " (" ++ String.ofList (Text.quote item) ++
      ") is not an integer: " ++ cause.message
  | .empty => "program listing is empty"

namespace Listing

/-- The line is a comment: its first character that is not blank is `#`. -/
def isComment (line : List Char) : Bool := (Text.trimStart line).head? == some '#'

/-- The lines that are not comments, joined by line feeds. -/
def body (source : List Char) : List Char :=
  ['\n'].intercalate ((Text.lines source).filter (!isComment ·))

/-- The items of a listing: what stands between commas, trimmed. An empty last item is none. -/
def items (source : List Char) : List (List Char) :=
  let found := (Text.pieces ',' (body source)).map Text.trim
  if found.getLast? = some [] then found.dropLast else found

/-- Reads items, of which the first has the given position, after the cells `found`, which are in
reverse order. -/
def readItems (found : List Cell) (position : Nat) :
    List (List Char) → Except ListingError (List Cell)
  | [] => .ok found.reverse
  | item :: rest =>
    match Decimal.read item with
    | .ok cell => readItems (cell :: found) (position + 1) rest
    | .error cause => .error (.notInteger position item cause)

/-- The image that a listing gives. -/
def parse (source : String) : Except ListingError (List Cell) :=
  match items source.toList with
  | [] => .error .empty
  | found => readItems [] 1 found

/-- The shortest listing of an image. -/
def format (image : List Cell) : String := ",".intercalate (image.map Cell.text)

/-! ## Files -/

/-- What a saved listing consists of: the shortest listing, on one line. -/
def file (image : List Cell) : String := format image ++ "\n"

/-- The text that bytes encode. -/
def decodeText (bytes : ByteArray) : Except ReadFailure String :=
  match String.fromUTF8? bytes with
  | some text => .ok text
  | none => .error .notUtf8

/-- The image in a file, given its bytes or why they cannot be read. -/
def load (file : Except ReadFailure ByteArray) : Except ListingError (List Cell) :=
  match file.bind decodeText with
  | .ok source => parse source
  | .error cause => .error (.unreadable cause)

end Listing
end IntcodeMachine
