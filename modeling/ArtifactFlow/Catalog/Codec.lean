import ArtifactFlow.Failure.Basic
import ArtifactFlow.Json.Printer
import ArtifactFlow.Json.Reader
import ArtifactFlow.Toml.Printer
import ArtifactFlow.Toml.Reader
import ArtifactFlow.Yaml.Printer
import ArtifactFlow.Yaml.Reader

/-!
Payloads as bytes: as structured text of some format, or as the text that they are.
-/

namespace ArtifactFlow

def Format.parse (format : Format) (text : String) : Result Value :=
  let parsed := match format with
    | .json => Json.parseString? text
    | .yaml => Yaml.parseString? text
    | .toml => (Toml.parseString? text).map .mapping
  match parsed with
  | some v => .ok v
  | none => .error (.unreadable format)

/-- How payloads are written. -/
inductive Codec where
  | structured (format : Format)
  | plain
  deriving DecidableEq, Repr

/-- A boolean option, or its default where it is not set to a boolean. -/
def optionFlag (options : Mapping) (key : String) (default : Bool) : Bool :=
  (Fields.get? key options >>= Value.asBool?).getD default

namespace Codec

def ofText (codec : Codec) (text : String) : Result Value :=
  match codec with
  | .structured format =>
      Result.context ("invalid " ++ format.label ++ " content") (format.parse text)
  | .plain => .ok (.string text)

def decode (codec : Codec) (bytes : ByteArray) : Result Value :=
  match String.fromUTF8? bytes with
  | some text => codec.ofText text
  | none => .error (.within "artifact content is not valid UTF-8" (.message "<utf8 error>"))

/-- The text of a payload. JSON is indented unless the options say otherwise; TOML holds mappings
alone, and plain text holds strings alone. -/
def toText (codec : Codec) (options : Mapping) (payload : Value) : Result String :=
  match codec with
  | .structured .json =>
      .ok (if optionFlag options "pretty" true then Json.prettyString payload
        else Json.compactString payload)
  | .structured .yaml => .ok (Yaml.printString payload)
  | .structured .toml =>
      match payload with
      | .mapping fields =>
          match Toml.printString? fields with
          | some text => .ok text
          | none =>
              .error (.within "value cannot be represented as TOML" (.message Format.toml.marker))
      | _ => .error (.message "toml artifacts must be mappings")
  | .plain =>
      match payload with
      | .string text => .ok text
      | other => .error (.message ("text artifacts must be strings, got " ++
          Json.compactString other))

def encode (codec : Codec) (options : Mapping) (payload : Value) : Result ByteArray :=
  (codec.toText options payload).map String.toUTF8

end Codec
end ArtifactFlow
