import StorageAtlas.Address.Lun

/-!
Addresses of logical units and namespaces, and their order: a number for host,
channel and target each, and the unit as a number and as eight bytes.
-/

namespace StorageAtlas

inductive AddressClass where
  | scsi
  | nvme
  deriving DecidableEq, Repr

namespace AddressClass

def name : AddressClass → Text
  | scsi => "scsi"
  | nvme => "nvme"

def ofName (t : Text) : Except ValueFault AddressClass :=
  if t = "scsi" then .ok scsi
  else if t = "nvme" then .ok nvme
  else .error (.unknownName t "AddressClass")

end AddressClass

/-- The channel of a namespace is the number of its controller device, the target the id of the
controller, the unit the namespace id. -/
structure Address where
  family : AddressClass
  host : Int
  channel : Int
  target : Int
  lun : Int
  lunBytes : Bytes
  deriving DecidableEq, Repr

namespace Address

/-- The host number of every namespace. -/
def nvmeHost : Int := 0x7FFF

/-- The largest namespace id, which stands for an invalidated one. -/
def lastNamespace : Nat := 0xFFFFFFFF

def isNvme (a : Address) : Bool := a.family = .nvme

def ofLun (host channel target : Int) (lun : Nat) : Address :=
  ⟨.scsi, host, channel, target, lun, Lun.ofNat lun⟩

def scsi (host channel target lun : Int) : Except ValueFault Address :=
  (Lun.ofInt lun).map fun bytes => ⟨.scsi, host, channel, target, lun, bytes⟩

/-- The low 32 bits of a namespace id, lowest byte first, and four zero bytes. -/
def namespaceBytes (id : Int) : Bytes :=
  let n := (id % 0x100000000).toNat
  [UInt8.ofNat (n % 256), UInt8.ofNat (n / 256 % 256), UInt8.ofNat (n / 65536 % 256),
    UInt8.ofNat (n / 16777216 % 256)] ++ Bytes.zeros 4

def nvme (minor controller id : Int) : Address :=
  ⟨.nvme, nvmeHost, minor, controller, id, namespaceBytes id⟩

/-- Compared first to last; every namespace comes after every SCSI unit. -/
def sortKey (a : Address) : List Int :=
  [if a.isNvme then 1 else 0, a.host, a.channel, a.target, a.lun]

/-- The first numbers that differ decide. -/
def keyLt : List Int → List Int → Bool
  | _, [] => false
  | [], _ :: _ => true
  | a :: r, b :: s => a < b || (a = b && keyLt r s)

def lt (a b : Address) : Bool := keyLt a.sortKey b.sortKey

def le (a b : Address) : Bool := !b.lt a

theorem scsi_natCast (host channel target : Int) {lun : Nat} (h : lun ≤ Lun.last) :
    scsi host channel target lun = .ok (ofLun host channel target lun) := by
  have h' : (lun : Int) ≤ (Lun.last : Int) := by exact_mod_cast h
  simp [scsi, Lun.ofInt, h', ofLun, Except.map]

end Address
end StorageAtlas
