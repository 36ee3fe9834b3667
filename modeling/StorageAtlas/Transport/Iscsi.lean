import StorageAtlas.Sorting
import StorageAtlas.Transport.Basic

/-!
SCSI over IP networks: a device belongs to the session that contains its target.
-/

namespace StorageAtlas.Transport.Iscsi

def sessionAttributes : List Text :=
  ["targetname", "tpgt", "data_pdu_in_order", "data_seq_in_order", "erl", "first_burst_len",
    "initial_r2t", "max_burst_len", "max_outstanding_r2t", "recovery_tmo"]

def hostProbe (s : AttributeTree) (host : Text) : Finding :=
  if s.isDir (s.classPath "iscsi_host" [host]) then .found .iscsi "iscsi:" else .absent

/-- The digits in the name of a session. -/
def sessionDigits? (name : Text) : Option Text :=
  if Text.startsWith name "session" && Text.isDigits (name.drop 7) then some (name.drop 7)
  else none

def readNumber (digits : Text) : Except ValueFault Int :=
  match Text.integer? 10 digits with
  | some n => .ok n
  | none => .error .notANumeral

/-- The numbers of the sessions that contain a device's target. -/
def sessions (s : AttributeTree) (a : Address) : Except ValueFault (List Int) :=
  let directory := s.classPath "iscsi_host" [a.hostName, "device"]
  let names := (sortBy Text.le (s.entries directory)).filter fun name =>
    (sessionDigits? name).isSome && s.isDir (PathText.joinAll directory [name, a.targetName])
  (names.filterMap sessionDigits?).mapM readNumber

/-- A number with the hexadecimal tag; a sign stands after the tag. -/
def tagged (n : Int) : Text :=
  if n < 0 then "0x-" ++ Text.hexadecimal n.natAbs else "0x" ++ Text.hexadecimal n.natAbs

/-- The name of a target port; there is none without target name and port group. -/
def portName? (attributes : Attributes) : Option Text := do
  let group ← (attributes.get? "tpgt").bind (Text.integer? 10)
  let target ← attributes.get? "targetname"
  some (target ++ ",t," ++ tagged group)

def ofSession (s : AttributeTree) (number : Int) : Finding :=
  let digits := Text.signed number
  let values := s.readMany (s.classPath "iscsi_session" ["session" ++ digits]) sessionAttributes
  let attributes := (OrderedMap.ofList [("session", digits)]).update values
  .found .iscsi ((portName? attributes).getD []) attributes

def deviceProbe (s : AttributeTree) (a : Address) (_device : Text) : Finding := do
  if s.isDir (s.classPath "iscsi_host" [a.hostName, "device"]) then
    match ← sessions s a with
    | [number] => ofSession s number
    | _ => Finding.found .iscsi []
  else Finding.absent

def probe : Probe := ⟨hostProbe, deviceProbe⟩

end StorageAtlas.Transport.Iscsi
