/-! # Reading files

A file is read whole and must be text in UTF-8.  `ReadFailure` is why it cannot be read. -/

namespace GrammarComparison

/-- Why a file cannot be read. -/
inductive ReadFailure where
  | missing
  | notDirectory
  | isDirectory
  | nameTooLong
  | notText
  | other (cause : String)
  deriving DecidableEq, Repr

namespace ReadFailure

/-- The cause in words. -/
def message : ReadFailure → String
  | missing => "No such file or directory (os error 2)"
  | notDirectory => "Not a directory (os error 20)"
  | isDirectory => "Is a directory (os error 21)"
  | nameTooLong => "File name too long (os error 36)"
  | notText => "stream did not contain valid UTF-8"
  | other cause => cause

end ReadFailure

/-- The text that bytes encode in UTF-8. -/
def decodeText (bytes : ByteArray) : Except ReadFailure String :=
  match String.fromUTF8? bytes with
  | some text => .ok text
  | none => .error .notText

end GrammarComparison
