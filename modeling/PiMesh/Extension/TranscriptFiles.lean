/-
The files of the transcripts.

One file a day, named by its date.  Switching the transcript on deletes the files of days that
are longer ago than it is to be kept.  A file whose name is no date is not looked at, and one
that cannot be deleted stays.  A directory that is not there lists nothing, as an empty one does.
-/
import PiMesh.Extension.Transcript
import PiMesh.Js.DateParse

namespace PiMesh

open Js Files

variable {ν : Type} [Number ν]

structure MeshTranscript where
  enabled : Bool
  files : Dir (List Char)

namespace MeshTranscript

/-- The name of `filePath`. -/
def fileName (date : Int) : String := isoDate date ++ ".jsonl"

/-- `/^\d{4}-\d{2}-\d{2}\.jsonl$/`. -/
def isDayFile (name : String) : Bool :=
  (readDate (name.toList.take 10)).isSome && name.toList.drop 10 == ".jsonl".toList

/-- The test of `pruneRetention` on a name. -/
def isOutdated (retentionDays : Nat) (now : Int) (name : String) : Bool :=
  isDayFile name &&
    match midnightOf (name.toList.take 10) with
    | none => false
    | some day => now - day > retentionDays * msPerDay

/-- `pruneRetention`, with the names `unlinkSync` succeeds for; what is left, and how many files
are gone. -/
def pruneRetention (retentionDays : Nat) (now : Int) (unlinks : String → Bool)
    (files : Dir (List Char)) : Dir (List Char) × Nat :=
  let removed := files.keys.filter fun name => isOutdated retentionDays now name && unlinks name
  (removed.foldl Map.delete files, removed.length)

/-- A call on the transcript.  A record reads the clock for its stamp and again for its file. -/
inductive Call (ν : Type) where
  | record (direction : String) (frame : Members ν) (stamped filed : Int)
  | setEnabled (on : Bool) (now : Int) (unlinks : String → Bool)

/-- `record` and `setEnabled`. -/
def after (retentionDays : Nat) (st : MeshTranscript) : Call ν → MeshTranscript
  | .record direction frame stamped filed =>
      { st with
        files := recordFrame st.enabled st.files (toISOString stamped) (toISOString filed)
          direction frame }
  | .setEnabled on now unlinks =>
      { enabled := on
        files := if on then (pruneRetention retentionDays now unlinks st.files).1 else st.files }

def TranscriptStep (retentionDays : Nat) (st : MeshTranscript) (c : Call ν)
    (st' : MeshTranscript) : Prop := st' = st.after retentionDays c

/-- The line that `record` writes. -/
def entryLine (direction : String) (frame : Members ν) (stamped : Int) : List Char :=
  Json.stringify (.obj [("ts", .str (toISOString stamped)), ("dir", .str direction),
    ("frame", .obj (cleanFrame frame))] : Json ν) ++ ['\n']

end MeshTranscript

end PiMesh
