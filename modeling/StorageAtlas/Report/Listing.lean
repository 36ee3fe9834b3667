import StorageAtlas.Address.Writer
import StorageAtlas.Listing.Record
import StorageAtlas.Report.Json
import StorageAtlas.Report.Size
import StorageAtlas.Report.Table
import StorageAtlas.Settings.Basic

/-!
Reports on records: a table of devices or of hosts, the details of each record,
and a document with everything.
-/

namespace StorageAtlas

/-- What a report shows beside the columns that are always there. -/
structure ReportOptions where
  brief : Bool := false
  transport : Bool := false
  identity : Bool := false
  kernelName : Bool := false
  number : Bool := false
  generic : Bool := false
  wwn : Bool := false
  scsiId : Bool := false
  size : Bool := false
  lunFormat : LunFormat := .decimal
  sizeScale : SizeScale := .decimal

namespace Report

/-- A text that is there and not empty, or a dash. -/
def orDash : Option Text → Text
  | some (c :: r) => c :: r
  | _ => "-"

def bracketed (t : Text) : Text := "[" ++ t ++ "]"

def addressCell (o : ReportOptions) (r : Record) : Except ValueFault Text :=
  (r.address.format o.lunFormat).map bracketed

def hostCell (r : Record) : Text := bracketed r.address.hostText

def nodeCell (o : ReportOptions) (r : Record) : Text :=
  orDash (if o.kernelName then r.kernelName else r.deviceNode)

def transportCell (r : Record) : Text :=
  match r.transport with
  | some t => if t.isKnown then t.summary else "-"
  | none => "-"

def identityCell (r : Record) : Text :=
  match r.identity with
  | some i => i.text
  | none => "-"

/-- The types whose size counts: disks, optical drives, simplified and zoned disks. -/
def sizedTypes : List Text := ["0", "5", "14", "20"]

/-- The size in bytes, from the number of sectors. -/
def sizeCell (o : ReportOptions) (r : Record) : Text :=
  if sizedTypes.contains (r.valueOr "type" []) then
    match r.attributes.get? "size" with
    | some (c :: rest) =>
      match Text.integer? 10 (c :: rest) with
      | some sectors => o.sizeScale.text (sectors * 512)
      | none => "-"
    | _ => "-"
  else "-"

/-- What stands in a table under a condition only. -/
def shownIf {α : Type} (condition : Bool) (a : α) : List α := if condition then [a] else []

def deviceHeaders (o : ReportOptions) : List Text :=
  List.flatten
    [if o.brief then ["Address", "Device"]
      else
        List.flatten
          [["Address", "Type", "Vendor", "Model", "Rev"], shownIf o.transport "Transport",
            shownIf o.identity "Identity", ["Device"]],
      shownIf o.number "MajMin", shownIf o.generic "Generic", shownIf o.wwn "WWN",
      shownIf o.scsiId "SCSI_ID", shownIf o.size "Size"]

def deviceRow (o : ReportOptions) (r : Record) : Except ValueFault (List Text) :=
  (addressCell o r).map fun address =>
    List.flatten
      [[address],
        if o.brief then []
        else
          List.flatten
            [[r.deviceType, r.valueOr "vendor" "?", r.valueOr "model" "?", r.valueOr "rev" "?"],
              shownIf o.transport (transportCell r), shownIf o.identity (identityCell r)],
        [nodeCell o r], shownIf o.number (orDash (r.number.map DeviceNumber.text)),
        shownIf o.generic (orDash r.genericNode), shownIf o.wwn (orDash r.wwn),
        shownIf o.scsiId (orDash r.scsiId), shownIf o.size (sizeCell o r)]

/-- The driver of a host, or the model of a controller. -/
def driverCell (r : Record) : Text :=
  if r.address.isNvme then r.valueOr "model" "nvme" else r.valueOr "proc_name" "<NULL>"

def hostHeaders (o : ReportOptions) : List Text :=
  List.flatten [["Host", "Driver"], shownIf o.transport "Transport", ["Device"]]

def hostRow (o : ReportOptions) (r : Record) : List Text :=
  List.flatten
    [[hostCell r, driverCell r], shownIf o.transport (transportCell r), [nodeCell o r]]

/-- The headers of a table of hosts or of devices. -/
def headers (o : ReportOptions) (hosts : Bool) : List Text :=
  if hosts then hostHeaders o else deviceHeaders o

def row (o : ReportOptions) (hosts : Bool) (r : Record) : Except ValueFault (List Text) :=
  if hosts then .ok (hostRow o r) else deviceRow o r

def tableLines (o : ReportOptions) (hosts : Bool) (records : List Record) :
    Except ValueFault (List Text) := do
  let rows ← records.mapM (row o hosts)
  Table.lines (headers o hosts) rows

def attributeLines (indent : Text) (attributes : Attributes) : List Text :=
  attributes.pairs.map fun (name, value) => indent ++ name ++ "=" ++ value

def transportLines (o : ReportOptions) (r : Record) : List Text :=
  match r.transport with
  | some t =>
    if o.transport && t.isKnown then
      ("  transport: " ++ t.kind.name) :: attributeLines "    " t.attributes
    else []
  | none => []

/-- The details of one record, with an empty line before them. -/
def detailLines (o : ReportOptions) (hosts : Bool) (r : Record) : Except ValueFault (List Text) := do
  let address ← if hosts then .ok (hostCell r) else addressCell o r
  let typeLine : List Text :=
    if r.address.isNvme || hosts then []
    else ["  device type: " ++ DeviceType.longName (DeviceType.code? (r.attributes.get? "type"))]
  .ok (([] : Text) :: (address ++ " " ++ r.name) ::
    (typeLine ++ attributeLines "  " r.attributes ++ transportLines o r))

def allDetailLines (o : ReportOptions) (hosts : Bool) (records : List Record) :
    Except ValueFault (List Text) :=
  (records.mapM (detailLines o hosts)).map List.flatten

/-! ## Documents -/

def ofAttributes (attributes : Attributes) : Json :=
  .object (attributes.pairs.map fun (name, value) => (name, .text value))

def ofAddress (a : Address) : Json :=
  .object
    [("class", .text a.family.name), ("host", .int a.host), ("channel", .int a.channel),
      ("target", .int a.target), ("lun", .int a.lun), ("lun_bytes", .text (Bytes.hex a.lunBytes))]

def ofIdentity (i : Identity) : Json :=
  .object [("kind", .text i.kind.name), ("prefix", Json.ofOption i.tag), ("value", .text i.value)]

def ofTransport (t : Transport) : Json :=
  .object
    [("kind", .text t.kind.name), ("summary", .text t.summary),
      ("attributes", ofAttributes t.attributes)]

def orNull (f : α → Json) : Option α → Json
  | some a => f a
  | none => .null

def ofRecord (r : Record) : Json :=
  .object
    [("name", .text r.name), ("address", ofAddress r.address), ("sysfs_path", .text r.directory),
      ("device_node", Json.ofOption r.deviceNode), ("kernel_name", Json.ofOption r.kernelName),
      ("device_kind", Json.ofOption (r.deviceKind.map DeviceKind.name)),
      ("major_minor", Json.ofOption (r.number.map DeviceNumber.text)),
      ("generic_node", Json.ofOption r.genericNode), ("identity", orNull ofIdentity r.identity),
      ("transport", orNull ofTransport r.transport), ("wwn", Json.ofOption r.wwn),
      ("scsi_id", Json.ofOption r.scsiId), ("attributes", ofAttributes r.attributes)]

def document (records : List Record) : Text := Json.document (.list (records.map ofRecord))

end Report
end StorageAtlas
