import Mathlib.Data.List.Basic
import StorageAtlas.Proofs.Failure
import StorageAtlas.Settings.Configuration

/-!
A mapping of names to values as a list of settings with new values. Taking every
setting by its name, as a configuration file is read, is the same as giving the pairs
one after the other, whatever their order; for no name stands there twice. Either all
known names make something of their values, or none does.
-/

namespace StorageAtlas

namespace OrderedMap

variable {α : Type}

theorem nodup_names_put {m : OrderedMap α} (h : m.names.Nodup) (name : Text) (value : α) :
    (m.put name value).names.Nodup := by
  rw [names_put]
  split
  · exact h
  · rename_i hname
    exact List.nodup_append.2 ⟨h, by simp, by simpa using fun _ ha => ne_of_mem_of_not_mem ha hname⟩

theorem nodup_names_ofList (pairs : List (Text × α)) : (ofList pairs).names.Nodup := by
  have hall : ∀ m : OrderedMap α, m.names.Nodup → (m.putAll pairs).names.Nodup := by
    induction pairs with
    | nil => exact fun m h => h
    | cons p rest ih => exact fun m h => ih _ (nodup_names_put h p.1 p.2)
  exact hall empty List.nodup_nil

theorem pairs_filterNames (p : Text → Bool) (m : OrderedMap α) :
    (m.filterNames p).pairs = m.pairs.filter fun pair => p pair.1 := rfl

theorem get?_filterNames {p : Text → Bool} {name : Text} (h : p name = true)
    (m : OrderedMap α) : (m.filterNames p).get? name = m.get? name := by
  rw [get?, get?, pairs_filterNames]
  induction m.pairs with
  | nil => rfl
  | cons pair rest ih =>
    by_cases hpair : p pair.1 = true
    · rw [List.filter_cons, if_pos hpair, List.lookup_cons, List.lookup_cons, ih]
    · have hne : (name == pair.1) = false := beq_eq_false_iff_ne.2 fun heq => hpair (heq ▸ h)
      rw [List.filter_cons, if_neg hpair, List.lookup_cons, hne, ih]

end OrderedMap

/-- A setting with the value that it is given. -/
inductive Assignment where
  | sysfsRoot (path : Text)
  | deviceRoot (path : Text)
  | lunLevel (n : Int)
  | noNvme (on : Bool)
  | holderDepth (n : Int)
  | identityLevel (n : Int)
  | sizeUnits (units : Text)
  deriving DecidableEq, Repr

namespace Assignment

/-- All other settings stay as they are. -/
def apply (s : Settings) : Assignment → Settings
  | sysfsRoot path => { s with sysfsRoot := path }
  | deviceRoot path => { s with deviceRoot := path }
  | lunLevel n => { s with lunLevel := n }
  | noNvme on => { s with noNvme := on }
  | holderDepth n => { s with holderDepth := n }
  | identityLevel n => { s with identityLevel := n }
  | sizeUnits units => { s with sizeUnits := units }

/-- Unknown units for sizes are decimal ones. -/
def knownUnits (t : Text) : Text := if Configuration.isSizeUnits t then t else "decimal"

/-- What a name of a configuration file makes of a value. -/
def makers : List (Text × (Value → Except ConversionError Assignment)) :=
  [("sysfsroot", fun v => .ok (.sysfsRoot v.toText)),
    ("devroot", fun v => .ok (.deviceRoot v.toText)),
    ("lunhex", fun v => v.toInt.map .lunLevel),
    ("no_nvme", fun v => .ok (.noNvme v.toSwitch)),
    ("holder_depth", fun v => v.toInt.map .holderDepth),
    ("unit", fun v => v.toInt.map .identityLevel),
    ("size_units", fun v => .ok (.sizeUnits (knownUnits v.toText)))]

/-- What a pair of a configuration file gives, if its name is known. -/
def ofPair? (pair : Text × Value) : Option (Except ConversionError Assignment) :=
  (makers.lookup pair.1).map fun make => make pair.2

/-- What the pairs of a configuration file give together, in their order. -/
def ofPairs (pairs : List (Text × Value)) : Except ConversionError (List Assignment) :=
  (pairs.filterMap ofPair?).mapM id

end Assignment

namespace Settings

/-- What is said later counts. -/
def merged (layers : List Assignment) : Settings := layers.foldl Assignment.apply {}

/-! ## Names and values -/

section Mapping

variable {β : Type}

/-- The value of a name, converted, or else what stands there already. -/
def valueOr (pairs : List (Text × Value)) (name : Text) (convert : Value → β) (default : β) : β :=
  ((pairs.lookup name).map convert).getD default

variable {name key : Text} {v : Value} {rest : List (Text × Value)} (convert : Value → β)
  (default : β)

theorem valueOr_cons_self : valueOr ((name, v) :: rest) name convert default = convert v := by
  rw [valueOr, List.lookup_cons_self]
  rfl

theorem valueOr_cons_of_ne (h : key ≠ name) :
    valueOr ((name, v) :: rest) key convert default = valueOr rest key convert default := by
  rw [valueOr, List.lookup_cons, beq_eq_false_iff_ne.2 h]
  rfl

theorem valueOr_of_not_mem (h : name ∉ rest.map Prod.fst) :
    valueOr rest name convert default = default := by
  have hnone : rest.lookup name = none := by
    refine List.lookup_eq_none_iff.2 fun p hp => bne_iff_ne.2 ?_
    rintro rfl
    exact h (List.mem_map_of_mem hp)
  rw [valueOr, hnone]
  rfl

/-- Every setting of `r` is the value of its name, converted, or else the one of `s`. -/
def Overlay (s : Settings) (pairs : List (Text × Value)) (r : Settings) : Prop :=
  valueOr pairs "sysfsroot" Value.toText s.sysfsRoot = r.sysfsRoot ∧
  valueOr pairs "devroot" Value.toText s.deviceRoot = r.deviceRoot ∧
  valueOr pairs "lunhex" Value.toInt (.ok s.lunLevel) = .ok r.lunLevel ∧
  valueOr pairs "no_nvme" Value.toSwitch s.noNvme = r.noNvme ∧
  valueOr pairs "holder_depth" Value.toInt (.ok s.holderDepth) = .ok r.holderDepth ∧
  valueOr pairs "unit" Value.toInt (.ok s.identityLevel) = .ok r.identityLevel ∧
  valueOr pairs "size_units" (fun v => Assignment.knownUnits v.toText) s.sizeUnits = r.sizeUnits

theorem ofPair?_isSome_iff : (Assignment.ofPair? (name, v)).isSome = true ↔ name ∈ names := by
  have hnames : names = Assignment.makers.map Prod.fst := rfl
  rw [Assignment.ofPair?, Option.isSome_map, List.lookup_isSome_iff, hnames, List.mem_map]
  simp only [beq_iff_eq, eq_comm (a := name)]

theorem overlay_cons_of_unknown {s r : Settings} (h : Assignment.ofPair? (name, v) = none) :
    Overlay s ((name, v) :: rest) r ↔ Overlay s rest r := by
  have hname (key : Text) (hkey : key ∈ names) : key ≠ name := by
    rintro rfl
    rw [← ofPair?_isSome_iff (v := v), h] at hkey
    cases hkey
  simp (disch := exact hname _ (by decide)) only [Overlay, valueOr_cons_of_ne]

theorem overlay_cons_of_known {s r : Settings} {made : Except ConversionError Assignment}
    (hmade : Assignment.ofPair? (name, v) = some made) (h : name ∉ rest.map Prod.fst) :
    Overlay s ((name, v) :: rest) r ↔ ∃ a, made = .ok a ∧ Overlay (a.apply s) rest r := by
  have hname : name ∈ names := ofPair?_isSome_iff.1 (Option.isSome_of_eq_some hmade)
  simp only [names, List.mem_cons, List.not_mem_nil, or_false] at hname
  -- one setting is that of the pair, the others do not see it
  cases hv : v.toInt with
  | error e =>
    rcases hname with rfl | rfl | rfl | rfl | rfl | rfl | rfl
    all_goals
      obtain rfl := Option.some.inj (show some _ = some made from hmade)
      simp (disch := first | decide | exact h) only [Overlay, valueOr_cons_self,
        valueOr_cons_of_ne, valueOr_of_not_mem, hv, Except.map, Except.ok.injEq, reduceCtorEq,
        false_and, and_false, exists_false, exists_eq_left', Assignment.apply]
  | ok n =>
    rcases hname with rfl | rfl | rfl | rfl | rfl | rfl | rfl
    all_goals
      obtain rfl := Option.some.inj (show some _ = some made from hmade)
      simp (disch := first | decide | exact h) only [Overlay, valueOr_cons_self,
        valueOr_cons_of_ne, valueOr_of_not_mem, hv, Except.map, Except.ok.injEq,
        exists_eq_left', Assignment.apply]

theorem overlay_nil {s r : Settings} : Overlay s [] r ↔ s = r := by
  cases s
  cases r
  simp [Overlay, valueOr]

/-- Settings taken by name are those that are given one pair after the other. -/
theorem overlay_iff {pairs : List (Text × Value)} (h : (pairs.map Prod.fst).Nodup)
    {s r : Settings} :
    Overlay s pairs r ↔
      ∃ given, Assignment.ofPairs pairs = .ok given ∧ given.foldl Assignment.apply s = r := by
  induction pairs generalizing s with
  | nil =>
    rw [overlay_nil]
    simp [Assignment.ofPairs, pure, Except.pure]
  | cons pair rest ih =>
    obtain ⟨hname, hrest⟩ := List.nodup_cons.1 h
    cases hpair : Assignment.ofPair? pair with
    | none =>
      rw [overlay_cons_of_unknown hpair, ih hrest, Assignment.ofPairs, Assignment.ofPairs,
        List.filterMap_cons_none hpair]
    | some made =>
      rw [overlay_cons_of_known hpair hname, Assignment.ofPairs,
        List.filterMap_cons_some hpair, List.mapM_cons]
      cases made with
      | error e => simp [bind, Except.bind]
      | ok a =>
        simp only [Except.ok.injEq, exists_eq_left', ih hrest, Assignment.ofPairs, id_eq]
        cases (rest.filterMap Assignment.ofPair?).mapM id with
        | error e => simp [bind, Except.bind]
        | ok given => simp [bind, Except.bind, pure, Except.pure]

end Mapping

/-! ## Mappings -/

/-- The settings with known units for sizes. -/
def withKnownUnits (s : Settings) : Settings :=
  { s with sizeUnits := Assignment.knownUnits s.sizeUnits }

theorem textOr_eq (m : OrderedMap Value) (name default : Text) :
    textOr m name default = valueOr m.pairs name Value.toText default := by
  rw [textOr, OrderedMap.get?, valueOr]
  cases m.pairs.lookup name <;> rfl

theorem intOr_eq (m : OrderedMap Value) (name : Text) (default : Int) :
    intOr m name default = valueOr m.pairs name Value.toInt (.ok default) := by
  rw [intOr, OrderedMap.get?, valueOr]
  cases m.pairs.lookup name <;> rfl

theorem ofMapping_eq (m : OrderedMap Value) :
    ofMapping m = (do
      let lunLevel ← valueOr m.pairs "lunhex" Value.toInt (.ok 0)
      let holderDepth ← valueOr m.pairs "holder_depth" Value.toInt (.ok 8)
      let identityLevel ← valueOr m.pairs "unit" Value.toInt (.ok 0)
      .ok
        { sysfsRoot := valueOr m.pairs "sysfsroot" Value.toText "/sys"
          deviceRoot := valueOr m.pairs "devroot" Value.toText "/dev"
          lunLevel := lunLevel
          noNvme := valueOr m.pairs "no_nvme" Value.toSwitch false
          holderDepth := holderDepth
          identityLevel := identityLevel
          sizeUnits := valueOr m.pairs "size_units" Value.toText "decimal" }) := by
  simp only [ofMapping, intOr_eq, textOr_eq]
  unfold OrderedMap.get?
  rw [valueOr.eq_def m.pairs "no_nvme"]
  cases m.pairs.lookup ("no_nvme" : Text) with
  | none => rfl
  | some v => rfl

/-- What a mapping sets is what it puts on top of the defaults, with known units for sizes. -/
theorem ofMapping_iff_overlay {m : OrderedMap Value} {r : Settings} :
    (∃ s, ofMapping m = .ok s ∧ s.withKnownUnits = r) ↔ Overlay {} m.pairs r := by
  have hunits : valueOr m.pairs "size_units" (fun v => Assignment.knownUnits v.toText) "decimal" =
      Assignment.knownUnits (valueOr m.pairs "size_units" Value.toText "decimal") := by
    rw [valueOr, valueOr]
    cases m.pairs.lookup ("size_units" : Text) <;> rfl
  simp only [ofMapping_eq, bind_eq_ok_iff, Except.ok.injEq]
  constructor
  · rintro ⟨s, ⟨lunLevel, hlun, depth, hdepth, level, hlevel, rfl⟩, rfl⟩
    exact ⟨rfl, rfl, hlun, rfl, hdepth, hlevel, hunits⟩
  · rintro ⟨hsysfs, hdevice, hlun, hnvme, hdepth, hlevel, hsize⟩
    refine ⟨_, ⟨_, hlun, _, hdepth, _, hlevel, rfl⟩, ?_⟩
    cases r
    simp only [withKnownUnits, Settings.mk.injEq]
    exact ⟨hsysfs, hdevice, trivial, hnvme, trivial, trivial, hunits.symm.trans hsize⟩

theorem isName_iff {p : Text × Value} :
    isName p.1 = true ↔ (Assignment.ofPair? p).isSome = true := by
  rw [isName, List.contains_iff_mem, ofPair?_isSome_iff]

/-- Pairs with unknown names make nothing. -/
theorem ofPairs_filterNames (m : OrderedMap Value) :
    Assignment.ofPairs (m.filterNames isName).pairs = Assignment.ofPairs m.pairs := by
  rw [Assignment.ofPairs, Assignment.ofPairs, OrderedMap.pairs_filterNames, List.filterMap_filter]
  refine congrArg (List.mapM id) (List.filterMap_congr fun p _ => ?_)
  by_cases hp : isName p.1 = true
  · exact if_pos hp
  · have hnone : Assignment.ofPair? p = none := by
      rwa [isName_iff, Option.not_isSome_iff_eq_none] at hp
    rw [hnone]
    exact ite_self none

/-- What the pairs with known names set is what all pairs give, one after the other. -/
theorem ofMapping_iff_given {m : OrderedMap Value} (h : m.names.Nodup) {r : Settings} :
    (∃ s, ofMapping (m.filterNames isName) = .ok s ∧ s.withKnownUnits = r) ↔
      ∃ given, Assignment.ofPairs m.pairs = .ok given ∧ merged given = r := by
  have hnodup : ((m.filterNames isName).pairs.map Prod.fst).Nodup :=
    h.sublist (List.filter_sublist.map Prod.fst)
  rw [ofMapping_iff_overlay, overlay_iff hnodup, ofPairs_filterNames]
  rfl

/-- Every pair with a known name makes something. -/
theorem isEmpty_of_ofPairs {m : OrderedMap Value} {given : List Assignment}
    (h : Assignment.ofPairs m.pairs = .ok given) :
    given.isEmpty = (m.filterNames isName).isEmpty := by
  rw [← ofPairs_filterNames] at h
  rw [OrderedMap.isEmpty]
  cases hpairs : (m.filterNames isName).pairs with
  | nil =>
    rw [hpairs] at h
    cases h
    rfl
  | cons p rest =>
    have hname : isName p.1 = true :=
      (List.mem_filter.1 (hpairs ▸ List.mem_cons_self : p ∈ (m.filterNames _).pairs)).2
    obtain ⟨made, hmade⟩ := Option.isSome_iff_exists.1 (isName_iff.1 hname)
    rw [hpairs, Assignment.ofPairs, List.filterMap_cons_some hmade, List.mapM_cons,
      bind_eq_ok_iff] at h
    obtain ⟨a, -, h⟩ := h
    obtain ⟨others, -, h⟩ := bind_eq_ok_iff.1 h
    cases h
    rfl

/-! ## Failures -/

/-- The error of a computation that fails. -/
def failure? {ε α : Type} : Except ε α → Option ε
  | .ok _ => none
  | .error e => some e

/-- Why a mapping is refused: the first number of three that is none. -/
def refusal? (m : OrderedMap Value) : Option ConversionError :=
  ["lunhex", "holder_depth", "unit"].findSome? fun name : String =>
    (m.get? name).bind fun v => failure? v.toInt

theorem failure?_intOr (m : OrderedMap Value) (name : Text) (default : Int) :
    failure? (intOr m name default) = (m.get? name).bind fun v => failure? v.toInt := by
  rw [intOr]
  cases m.get? name <;> rfl

theorem failure?_ofMapping (m : OrderedMap Value) : failure? (ofMapping m) = refusal? m := by
  simp only [refusal?, List.findSome?_cons, List.findSome?_nil]
  rw [← failure?_intOr m "lunhex" 0, ← failure?_intOr m "holder_depth" 8,
    ← failure?_intOr m "unit" 0, ofMapping]
  cases intOr m "lunhex" 0 with
  | error e => rfl
  | ok n =>
    cases intOr m "holder_depth" 8 with
    | error e => rfl
    | ok n => cases intOr m "unit" 0 <;> rfl

theorem refusal?_filterNames (m : OrderedMap Value) :
    refusal? (m.filterNames isName) = refusal? m := by
  simp (disch := decide) only [refusal?, List.findSome?_cons, List.findSome?_nil,
    OrderedMap.get?_filterNames]

end Settings
end StorageAtlas
