import StorageAtlas.Bytes.Utf8
import StorageAtlas.Identification.Descriptor
import StorageAtlas.Log
import StorageAtlas.ValueFault

/-!
The identity of a logical unit: which of a page's designators names it, in what
form, and how it is cut to a capacity. The choice depends on nothing but the
first descriptor of each of six kinds.
-/

namespace StorageAtlas

inductive IdentityKind where
  | naa
  | eui
  | scsiName
  | t10
  | uuid
  | nvme
  | none
  deriving DecidableEq, Repr

namespace IdentityKind

def name : IdentityKind → Text
  | naa => "naa"
  | eui => "eui"
  | scsiName => "scsi_name"
  | t10 => "t10"
  | uuid => "uuid"
  | nvme => "nvme"
  | none => "none"

def all : List IdentityKind := [naa, eui, scsiName, t10, uuid, nvme, none]

def ofName (t : Text) : Except ValueFault IdentityKind :=
  match all.find? fun kind => kind.name = t with
  | some kind => .ok kind
  | .none => .error (.unknownName t "IdentityKind")

end IdentityKind

/-- The tag announces the kind and is shown only on request. -/
structure Identity where
  kind : IdentityKind
  value : Text := []
  tag : Option Text := Option.none
  deriving DecidableEq, Repr

namespace Identity

def nothing : Identity := { kind := .none }

def text (i : Identity) : Text := i.tag.getD [] ++ i.value

def render (i : Identity) (capacity : Option Int) : Text := Text.fit capacity i.text

/-- Cuts an identity that is too long: the tag stays as long as there is room for it. -/
def limit (capacity : Option Int) (i : Identity) : Identity :=
  match capacity with
  | .none => i
  | some n =>
    if (i.text.length : Int) ≤ n then i
    else
      let tag := i.tag.getD []
      let room := (n - tag.length).toNat
      { i with
        tag := if room = 0 ∧ tag ≠ [] then some (Text.sliceTo n tag) else i.tag
        value := i.value.take room }

/-- The text of a designator, up to the first zero byte. -/
def designatorText (d : Descriptor) : Text :=
  Utf8.decodeLossy (d.designator.takeWhile (· ≠ 0))

def unitNameQuery : Query := ⟨some 0, some 8, some 3⟩
def portNameQuery : Query := ⟨some 1, some 8, some 3⟩
def naaQuery : Query := ⟨some 0, some 3, some 1⟩
def euiQuery : Query := ⟨some 0, some 2, some 1⟩
def uuidQuery : Query := ⟨some 0, some 10, some 1⟩
def vendorQuery : Query := ⟨some 0, some 1, Option.none⟩

def isIscsiPort (d : Descriptor) : Bool := d.protocolValid && d.protocol = 5

/-- A unit's name goes before all else when the port that answers is named by iSCSI. -/
def nameGoesFirst (find : Query → Option Descriptor) : Bool :=
  (find unitNameQuery).isSome && (find portNameQuery).any isIscsiPort

def ofName (d : Descriptor) : Identity := { kind := .scsiName, value := designatorText d }

def ofNaa (d : Descriptor) : Identity :=
  if d.designator.length = 8 ∨ d.designator.length = 16 then
    { kind := .naa, value := Bytes.hex d.designator, tag := some "naa." }
  else nothing

def ofEui (d : Descriptor) : Identity :=
  if d.designator.length = 8 ∨ d.designator.length = 12 ∨ d.designator.length = 16 then
    { kind := .eui, value := Bytes.hex d.designator, tag := some "eui." }
  else nothing

def dashed (digits : Text) : Text :=
  Text.join "-" [digits.take 8, (digits.drop 8).take 4, (digits.drop 12).take 4,
    (digits.drop 16).take 4, (digits.drop 20).take 12]

def ofUuid (d : Descriptor) : Identity :=
  if d.designator.length = 18 ∧ (d.designator.headD 0).toNat / 16 = 1 then
    { kind := .uuid, value := dashed (Bytes.hex (d.designator.drop 2)), tag := some "uuid." }
  else { kind := .uuid, value := "??" }

def ofVendor (d : Descriptor) : Identity :=
  if 1 < d.codeSet ∧ 8 ≤ d.designator.length then
    { kind := .t10, value := designatorText d, tag := some "t10." }
  else nothing

/-- The identity with its tag, from the first descriptor of each kind. The first kind that is
present decides, even when its designator turns out to be of no use. -/
def choose (find : Query → Option Descriptor) : Identity :=
  if nameGoesFirst find then ((find unitNameQuery).map ofName).getD nothing
  else match find naaQuery, find euiQuery, find uuidQuery, find unitNameQuery, find vendorQuery with
    | some d, _, _, _, _ => ofNaa d
    | _, some d, _, _, _ => ofEui d
    | _, _, some d, _, _ => ofUuid d
    | _, _, _, some d, _ => ofName d
    | _, _, _, _, some d => ofVendor d
    | _, _, _, _, _ => nothing

/-- The searches behind a choice, in order: each one is made only if those before leave it open. -/
def searches (find : Query → Option Descriptor) : List Query :=
  let found := fun q => (find q).isSome
  unitNameQuery :: ((if found unitNameQuery then [portNameQuery] else []) ++
    if nameGoesFirst find then []
    else if found naaQuery then [naaQuery]
    else if found euiQuery then [naaQuery, euiQuery]
    else if found uuidQuery then [naaQuery, euiQuery, uuidQuery]
    else if found unitNameQuery then [naaQuery, euiQuery, uuidQuery]
    else [naaQuery, euiQuery, uuidQuery, vendorQuery])

def withTag (wanted : Bool) (i : Identity) : Identity :=
  if wanted then i else { i with tag := Option.none }

/-- The identity that a page gives; a page with a bad header gives none. -/
def ofPage (bytes : Bytes) (wantTag : Bool := false) (capacity : Option Int := Option.none) :
    Identity :=
  match Page.ofBytes bytes with
  | .error _ => nothing
  | .ok page => ((choose page.first).withTag wantTag).limit capacity

/-- What a reader of the log learns on the way: a search that runs into the end of a page which is
shorter than its lengths says is reported, each time. -/
def pageLog (bytes : Bytes) : List LogLine :=
  match Page.ofBytes bytes with
  | .error e => [.debug ("Ignoring Device Identification page: " ++ e.message)]
  | .ok page =>
    let truncations := (searches page.first).filterMap fun q =>
      match page.walk.next q with
      | (Option.none, w) => if w.status = .truncated then some w.offset else Option.none
      | _ => Option.none
    truncations.map fun offset =>
      .debug ("VPD page 0x83 descriptor list truncated at offset " ++ Text.decimal offset)

end Identity
end StorageAtlas
