import StorageAtlas.Bytes.Basic

/-!
Device identification pages: a header and a list of designation descriptors,
each with its own length. A walk goes through the descriptors one after the
other and ends where the page ends or where a length leads beyond it.
-/

namespace StorageAtlas

/-- One designation descriptor; the offset is that of its header in the page's body. -/
structure Descriptor where
  offset : Nat
  protocol : Nat
  codeSet : Nat
  /-- Does the protocol field count? -/
  protocolValid : Bool
  association : Nat
  kind : Nat
  designator : Bytes
  deriving DecidableEq, Repr

namespace Descriptor

def ofHeader (offset : Nat) (b0 b1 : UInt8) (designator : Bytes) : Descriptor where
  offset := offset
  protocol := b0.toNat / 16
  codeSet := b0.toNat % 16
  protocolValid := 128 ≤ b1.toNat
  association := b1.toNat / 16 % 4
  kind := b1.toNat % 16
  designator := designator

/-- The bytes of a descriptor, with the reserved bits zero. -/
def encode (d : Descriptor) : Bytes :=
  [UInt8.ofNat (16 * d.protocol + d.codeSet),
    UInt8.ofNat ((if d.protocolValid then 128 else 0) + 16 * d.association + d.kind), 0,
    UInt8.ofNat d.designator.length] ++ d.designator

end Descriptor

/-- A choice of descriptors: a field that is not given takes any value. -/
structure Query where
  association : Option Int := none
  kind : Option Int := none
  codeSet : Option Int := none
  deriving DecidableEq, Repr

namespace Query

def meets (wanted : Option Int) (actual : Nat) : Bool :=
  match wanted with
  | some v => v = (actual : Int)
  | none => true

def accepts (q : Query) (d : Descriptor) : Bool :=
  meets q.codeSet d.codeSet && meets q.association d.association && meets q.kind d.kind

end Query

inductive PageError where
  | tooShort (bytes : Nat)
  | otherPage (code : UInt8)
  deriving DecidableEq, Repr

namespace PageError

def message : PageError → Text
  | tooShort n => "VPD page too short: " ++ Text.decimal n ++ " bytes"
  | otherPage code =>
    "Expected VPD page 0x83, got 0x" ++ Text.padZeros 2 (Text.hexadecimal code.toNat)

end PageError

inductive WalkStatus where
  | running
  /-- The descriptors end where the page ends. -/
  | done
  /-- A descriptor reaches beyond the bytes. -/
  | truncated
  deriving DecidableEq, Repr

def WalkStatus.name : WalkStatus → Text
  | running => "running"
  | done => "done"
  | truncated => "truncated"

/-- Where a walk stands: the bytes from `offset` on, and the length that the header declares. -/
structure Walk where
  declared : Nat
  offset : Nat
  rest : Bytes
  status : WalkStatus
  deriving DecidableEq, Repr

namespace Walk

/-- The next descriptor that the query accepts, from an offset and the bytes that begin there. -/
def seek (q : Query) (declared offset : Nat) (rest : Bytes) : Option Descriptor × Walk :=
  if declared ≤ offset then (none, ⟨declared, offset, rest, .done⟩)
  else match rest with
    | b0 :: b1 :: _ :: n :: tail =>
      if tail.length < n.toNat then (none, ⟨declared, offset, rest, .truncated⟩)
      else
        let d := Descriptor.ofHeader offset b0 b1 (tail.take n.toNat)
        let next := offset + 4 + n.toNat
        if q.accepts d then (some d, ⟨declared, next, tail.drop n.toNat, .running⟩)
        else seek q declared next (tail.drop n.toNat)
    | _ => (none, ⟨declared, offset, rest, .truncated⟩)
termination_by rest.length
decreasing_by
  simp only [List.length_drop, List.length_cons]
  omega

/-- Asks for one more descriptor; a walk that has ended stays as it is. -/
def next (q : Query) (w : Walk) : Option Descriptor × Walk :=
  match w.status with
  | .running => seek q w.declared w.offset w.rest
  | _ => (none, w)

/-- All descriptors from an offset on, and where the walk ends. -/
def collect (declared offset : Nat) (rest : Bytes) : List Descriptor × Walk :=
  if declared ≤ offset then ([], ⟨declared, offset, rest, .done⟩)
  else match rest with
    | b0 :: b1 :: _ :: n :: tail =>
      if tail.length < n.toNat then ([], ⟨declared, offset, rest, .truncated⟩)
      else
        let d := Descriptor.ofHeader offset b0 b1 (tail.take n.toNat)
        let (ds, last) := collect declared (offset + 4 + n.toNat) (tail.drop n.toNat)
        (d :: ds, last)
    | _ => ([], ⟨declared, offset, rest, .truncated⟩)
termination_by rest.length
decreasing_by
  simp only [List.length_drop, List.length_cons]
  omega

end Walk

/-- The body of a page, cut to the length that its header declares. -/
structure Page where
  declared : Nat
  body : Bytes
  deriving DecidableEq, Repr

namespace Page

def ofBytes : Bytes → Except PageError Page
  | _ :: code :: high :: low :: rest =>
    if code = 0x83 then
      let declared := 256 * high.toNat + low.toNat
      .ok ⟨declared, rest.take declared⟩
    else .error (.otherPage code)
  | short => .error (.tooShort short.length)

/-- A page of descriptors for a disk. -/
def encode (ds : List Descriptor) : Bytes :=
  let body := ds.flatMap Descriptor.encode
  [0, 0x83, UInt8.ofNat (body.length / 256), UInt8.ofNat (body.length % 256)] ++ body

def walk (p : Page) : Walk := ⟨p.declared, 0, p.body, .running⟩

/-- Everything that a walk without a query finds, in order. -/
def descriptors (p : Page) : List Descriptor := (Walk.collect p.declared 0 p.body).1

/-- Where a walk through the whole page ends. -/
def finish (p : Page) : Walk := (Walk.collect p.declared 0 p.body).2

def first (p : Page) (q : Query) : Option Descriptor := (p.walk.next q).1

end Page

/-- A search finds the first of all descriptors that its query accepts. -/
theorem Walk.seek_fst (q : Query) (declared offset : Nat) (rest : Bytes) :
    (Walk.seek q declared offset rest).1 =
      (Walk.collect declared offset rest).1.find? q.accepts := by
  fun_induction Walk.collect declared offset rest with
  | case1 offset rest h => unfold Walk.seek; simp [h]
  | case2 offset h b0 b1 x n tail hn => rw [Walk.seek]; simp [h, hn]
  | case3 offset h b0 b1 x n tail hn d ds last hc ih =>
    rw [Walk.seek]
    simp only [h, hn, ↓reduceIte]
    by_cases ha : q.accepts d
    · simp only [d] at ha
      simp [ha, d]
    · simp only [d] at ha
      simp [ha, ih, hc, d]
  | case4 offset rest h hx =>
    rw [Walk.seek]
    · simp [h]
    · exact hx

theorem Page.first_eq_find? (p : Page) (q : Query) :
    p.first q = p.descriptors.find? q.accepts := Walk.seek_fst q p.declared 0 p.body

end StorageAtlas
