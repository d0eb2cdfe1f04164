import LoopLint.Path.Basic

/-!
# Failures

Why a file could not be checked.  A failure is a cause and the contexts in which it came up, from
the innermost to the outermost.
-/

namespace LoopLint

/-- What the file system refuses. -/
inductive FileError where
  | notFound
  | notADirectory
  | isADirectory
  | nameTooLong
  | tooManyLinks
  | notText
deriving DecidableEq, Repr

/-- The file system's own words. -/
def FileError.text : FileError → String
  | notFound => "No such file or directory (os error 2)"
  | notADirectory => "Not a directory (os error 20)"
  | isADirectory => "Is a directory (os error 21)"
  | nameTooLong => "File name too long (os error 36)"
  | tooManyLinks => "Too many levels of symbolic links (os error 40)"
  | notText => "stream did not contain valid UTF-8"

/-- What went wrong. -/
inductive Cause where
  | syntaxErrors (file : Path)
  | unsupportedLanguage (file : Path)
  | file (e : FileError)
  | other (message : String)
deriving DecidableEq, Repr

/-- What is said of a cause. -/
def Cause.text : Cause → String
  | syntaxErrors p => "Failed to parse " ++ p.text ++ " due to syntax errors."
  | unsupportedLanguage p =>
    "Don't know how to parse " ++ p.text ++ ": expected a JavaScript or TypeScript file."
  | file e => e.text
  | other message => message

/-- A cause and the contexts around it, the innermost first. -/
structure Failure where
  cause : Cause
  contexts : List String
deriving DecidableEq, Repr

namespace Failure

/-- A failure without context. -/
def of (c : Cause) : Failure := ⟨c, []⟩

/-- The same failure seen from outside. -/
def within (f : Failure) (context : String) : Failure :=
  { f with contexts := f.contexts ++ [context] }

/-- The contexts from the outermost to the innermost, then the cause. -/
def chain (f : Failure) : List String :=
  f.contexts.reverse ++ [f.cause.text]

/-- The whole chain on one line. -/
def text (f : Failure) : String :=
  ": ".intercalate f.chain

end Failure
end LoopLint
