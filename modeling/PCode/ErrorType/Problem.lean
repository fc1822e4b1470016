/-!
Why an error type cannot be given its implementations.
-/

namespace PCode.ErrorType

inductive Problem where
  | unionUnsupported
  | messageMissing (owner : String)
  /-- The message attribute is not a list. -/
  | messageForm
  /-- The message is a literal, but no text. -/
  | messageNotText
  | messageUnreadable
  | severalSources
  /-- A field that converts stands beside others. -/
  | conversionNotAlone
  deriving DecidableEq

def Problem.message : Problem → String
  | unionUnsupported => "Error derive does not support unions"
  | messageMissing owner =>
    "missing #[error(\"...\")] attribute on " ++ owner ++
      "; every error variant must declare a display message"
  | messageForm =>
    "invalid #[error] attribute; use #[error(\"message\")] to describe the error"
  | messageNotText =>
    "invalid #[error] attribute: message must be a string literal, e.g. " ++
      "#[error(\"invalid opcode \x7b0\x7d\")]"
  | messageUnreadable =>
    "failed to parse #[error] attribute; expected a string literal like " ++
      "#[error(\"stack underflow\")]"
  | severalSources => "only one field may be marked #[source] or #[from]"
  | conversionNotAlone => "#[from] requires the variant to have exactly one field"

end PCode.ErrorType
