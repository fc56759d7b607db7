set_option autoImplicit false

/-!
Why the file system refuses an operation.
-/

namespace ClipRender.Files

inductive Fault where
  | missing
  | taken
  | notDirectory
  | isDirectory
  | nameTooLong
  | tooManyLinks
  | notAllowed
deriving DecidableEq

end ClipRender.Files
