/-
The transcript.

Bodies are stored here and nowhere else, after everything that looks like a secret has been replaced
by a tag and what is too long has been cut off.  Texts are sequences of whole code points, so a lone
surrogate is not one of them; where a pattern counts code units, it counts only those of ASCII.
-/
import PiMesh.Extension.Ledger
import PiMesh.Lib.Replace
import PiMesh.Lib.Utf8

namespace PiMesh

open Js Regex

/-- `TRANSCRIPT_MAX_BODY_BYTES`. -/
def transcriptMaxBodyBytes : Nat := 32 * 1024

/-- `TRUNCATED_MARKER`. -/
def truncatedMarker : String := "…[truncated]"

/-! ### Secrets -/

structure SecretPattern where
  name : String
  re : Pattern Char
  replacement : String

/-- `\w`. -/
def isWordChar (c : Char) : Bool := c.isAlphanum || c == '_'

/-- `[0-9A-Z]`. -/
def isKeyChar (c : Char) : Bool := c.isDigit || c.isUpper

/-- `[A-Z0-9_]`. -/
def isNameOfSecret (c : Char) : Bool := isKeyChar c || c == '_'

/-- `[^\s"']`. -/
def isUnquoted (c : Char) : Bool := !(isTrimmed c || c == '"' || c == '\'')

def literal (s : String) : Pattern Char := .lit s.toList

/-- Both ends are edges of words. -/
def framed (a : Pattern Char) : Pattern Char := .seq (.edge isWordChar) (.seq a (.edge isWordChar))

/-- `-----BEGIN [A-Z0-9 ]*PRIVATE KEY-----`, or the same with `END`. -/
def keyLine (start : String) : Pattern Char :=
  .seq (literal start) (.seq (.many fun c => isKeyChar c || c == ' ') (literal "PRIVATE KEY-----"))

def privateKey : Pattern Char :=
  .seq (keyLine "-----BEGIN ") (.seq (.few fun _ => true) (keyLine "-----END "))

def bearerToken : Pattern Char :=
  .seq (literal "Bearer") (.seq (.plus isTrimmed)
    (.atLeast 8 fun c => c.isAlphanum || "._~+/=-".toList.contains c))

def apiKey : Pattern Char :=
  framed (.seq
    (.oneOf [literal "sk", literal "ghp", literal "github_pat",
      .seq (literal "xox") (.char fun c => "baprs".toList.contains c)])
    (.seq (.char fun c => c == '-' || c == '_')
      (.atLeast 8 fun c => c.isAlphanum || c == '_' || c == '-')))

def awsAccessKey : Pattern Char := framed (.seq (literal "AKIA") (.times 16 isKeyChar))

/-- What is assigned to: `\b[A-Z0-9_]*(?:SECRET|TOKEN|PASSWORD|API_KEY)[A-Z0-9_]*`. -/
def secretName : Pattern Char :=
  .seq (.edge isWordChar) (.seq (.many isNameOfSecret)
    (.seq (.oneOf [literal "SECRET", literal "TOKEN", literal "PASSWORD", literal "API_KEY"])
      (.many isNameOfSecret)))

/-- `\s*=\s*`. -/
def assignment : Pattern Char := .seq (.many isTrimmed) (.seq (literal "=") (.many isTrimmed))

def secretAssignment : Pattern Char := .seq (.seq secretName assignment) (.plus isUnquoted)

def email : Pattern Char :=
  framed (.seq (.plus fun c => c.isAlphanum || "._%+-".toList.contains c)
    (.seq (literal "@") (.seq (.plus fun c => c.isAlphanum || c == '.' || c == '-')
      (.seq (literal ".") (.atLeast 2 Char.isAlpha)))))

/-- `SECRET_PATTERNS`. -/
def secretPatterns : List SecretPattern :=
  [⟨"private_key", privateKey, "[REDACTED:PRIVATE_KEY]"⟩,
    ⟨"bearer_token", bearerToken, "[REDACTED:BEARER]"⟩,
    ⟨"api_key", apiKey, "[REDACTED:API_KEY]"⟩,
    ⟨"aws_access_key", awsAccessKey, "[REDACTED:AWS_ACCESS_KEY]"⟩,
    ⟨"secret_assignment", secretAssignment, "[REDACTED:SECRET_ASSIGNMENT]"⟩,
    ⟨"email", email, "[REDACTED:EMAIL]"⟩]

/-- `out.replace(p.re, p.replacement)`; no replacement has a `$`. -/
def SecretPattern.redact (out : String) (p : SecretPattern) : String :=
  String.ofList (p.re.replaceAll p.replacement.toList out.toList)

def redactSecrets (text : String) : String := secretPatterns.foldl SecretPattern.redact text

/-! ### Long bodies -/

/-- The loop that backs off continuation bytes. -/
def backOff (buf : List UInt8) : Nat → Nat
  | 0 => 0
  | stop + 1 =>
      if buf[stop + 1]?.any fun byte => byte &&& 0xC0 == 0x80 then backOff buf stop else stop + 1

def truncateUtf8 (text : String) (maxBytes : Nat) : String :=
  let buf := Utf8.encode text.toList
  if buf.length ≤ maxBytes then text
  else String.ofList (Utf8.decode (buf.take (backOff buf maxBytes))) ++ truncatedMarker

/-! ### Recording -/

section Record

variable {ν : Type}

/-- `clean`. -/
def cleanFrame (frame : Members ν) : Members ν :=
  match lookupEntry "body" frame with
  | some (.str body) =>
      setEntry "body" (.str (truncateUtf8 (redactSecrets body) transcriptMaxBodyBytes)) frame
  | _ => frame

/-- `MeshTranscript.record`: the files of the transcripts, each a list of lines.  `ts` and `date` are
two readings of the clock. -/
def recordFrame [Number ν] (enabled : Bool) (dir : Files.Dir (List Char)) (ts date direction : String)
    (frame : Members ν) : Files.Dir (List Char) :=
  if enabled then
    let entry : Json ν :=
      .obj [("ts", .str ts), ("dir", .str direction), ("frame", .obj (cleanFrame frame))]
    Files.append dir (String.ofList (date.toList.take 10) ++ ".jsonl") (Json.stringify entry ++ ['\n'])
  else dir

end Record

end PiMesh
