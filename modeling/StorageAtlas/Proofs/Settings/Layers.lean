import StorageAtlas.CommandLine.Run
import StorageAtlas.Proofs.Settings.Assignments

/-!
The settings of a run as layers: what the configuration file gives, then the variable,
then the command line. Each is a list of settings with new values, of which later ones
replace earlier ones; what none of them names keeps its default. A file of which one
value cannot be converted gives nothing, whatever else stands in it. Three things end
the run instead: bytes that are no text, a text at which the reader of the notation
fails, and an infinite number where a whole one belongs.
-/

namespace StorageAtlas

/-! ## The file -/

section File

open Settings (merged refusal? failure? failure?_ofMapping refusal?_filterNames ofMapping_iff_given
  isEmpty_of_ofPairs)

/-- What a mapping gives: all that its known names make of their values, or nothing. -/
def OrderedMap.given (m : OrderedMap Value) : List Assignment :=
  (Assignment.ofPairs m.pairs).toOption.getD []

/-- How a file is read: it ends in this fault, or else gives these settings. -/
structure Configuration.Reads (x : Except ValueFault Loaded) (fault : Option ValueFault)
    (given : List Assignment) : Prop where
  fails : ∀ f, fault = some f → x = .error f
  gives : fault = none →
    ∃ l, x = .ok l ∧ l.settings = merged given ∧ l.hasValues = !given.isEmpty

namespace Configuration

theorem settings_checkUnits (l : Loaded) :
    (checkUnits l).settings = l.settings.withKnownUnits := by
  rw [checkUnits, Settings.withKnownUnits, Assignment.knownUnits]
  split
  · rfl
  · rfl

theorem hasValues_checkUnits (l : Loaded) : (checkUnits l).hasValues = l.hasValues := by
  rw [checkUnits]
  split
  · rfl
  · rfl

theorem reads_ofFields {m : OrderedMap Value} (h : m.names.Nodup) :
    Reads (ofFields m) (if refusal? m = some .infinite then some .infiniteNumber else none)
      m.given := by
  rw [← refusal?_filterNames, ← failure?_ofMapping]
  cases hmapping : Settings.ofMapping (m.filterNames Settings.isName) with
  | ok s =>
    obtain ⟨given, hgiven, hsettings⟩ := (ofMapping_iff_given h).1 ⟨s, hmapping, rfl⟩
    have hlayer : m.given = given := by
      rw [OrderedMap.given, hgiven]
      rfl
    rw [hlayer]
    refine ⟨by simp [failure?], fun _ => ?_⟩
    rw [ofFields]
    simp only [hmapping]
    refine ⟨_, rfl, ?_, ?_⟩
    · rw [settings_checkUnits, hsettings]
    · rw [hasValues_checkUnits, isEmpty_of_ofPairs hgiven]
  | error e =>
    have hnothing : m.given = [] := by
      rw [OrderedMap.given]
      cases hpairs : Assignment.ofPairs m.pairs with
      | error e => rfl
      | ok given =>
        obtain ⟨s, hs, -⟩ := (ofMapping_iff_given h).2 ⟨given, hpairs, rfl⟩
        rw [hmapping] at hs
        cases hs
    rw [hnothing, ofFields]
    simp only [hmapping]
    cases e with
    | infinite => exact ⟨fun f hf => congrArg Except.error (Option.some.inj hf), by simp [failure?]⟩
    | notANumeral | notANumber | undefined =>
      exact ⟨by simp [failure?], fun _ => ⟨_, rfl, rfl, rfl⟩⟩

/-- The document in a file, if there is a file that can be read. -/
def document? (around : Surroundings) (path : Text) : Option Document :=
  if around.tree.exists? path then (readDocument around path).toOption else none

/-- Only a mapping has fields. -/
def fieldsOf : Option Document → OrderedMap Value
  | some (.value (.mapping fields)) => .ofList fields
  | _ => .empty

/-- What ends the run that reads this file: bytes that are no text, a failure of the reader, or a
mapping that is refused for an infinite number. -/
def faultOf : Option Document → Option ValueFault
  | some .notText => some .notText
  | some (.failed kind reason) => some (.ofReader kind reason)
  | d => if refusal? (fieldsOf d) = some .infinite then some .infiniteNumber else none

/-- Where no fields are found and nothing fails, everything stays as it is. -/
theorem reads_default {d : Option Document} (hfields : fieldsOf d = .empty)
    (hfault : faultOf d = none) (log : List LogLine) :
    Reads (.ok { log }) (faultOf d) (fieldsOf d).given := by
  rw [hfault, hfields]
  exact ⟨by simp, fun _ => ⟨_, rfl, rfl, rfl⟩⟩

/-- Where something fails, nothing else counts. -/
theorem reads_error {d : Option Document} {fault : ValueFault} (hfault : faultOf d = some fault) :
    Reads (.error fault) (faultOf d) (fieldsOf d).given := by
  rw [hfault]
  exact ⟨fun f hf => congrArg Except.error (Option.some.inj hf), by simp⟩

theorem reads_ofDocument (path : Text) (d : Document) :
    Reads (ofDocument path d) (faultOf (some d)) (fieldsOf (some d)).given := by
  cases d with
  | notText => exact reads_error rfl
  | unparsable => exact reads_default rfl rfl _
  | failed kind reason => exact reads_error rfl
  | value v =>
    unfold ofDocument
    by_cases hempty : v.toSwitch = true
    · simp only [hempty, Bool.not_true, Bool.false_eq_true, if_false]
      cases v with
      | mapping fields => exact reads_ofFields (OrderedMap.nodup_names_ofList fields)
      | null | bool | int | decimal | undefined | text | list | other =>
        exact reads_default rfl rfl _
    · simp only [hempty, Bool.not_false, if_true]
      cases v with
      | mapping fields =>
        obtain rfl : fields = [] := by simpa [Value.toSwitch] using hempty
        exact reads_default rfl rfl _
      | null | bool | int | decimal | undefined | text | list | other =>
        exact reads_default rfl rfl _

theorem reads_ofFile (around : Surroundings) (path : Text) :
    Reads (ofFile around path) (faultOf (document? around path))
      (fieldsOf (document? around path)).given := by
  rw [ofFile, document?]
  by_cases hfile : around.tree.exists? path = true
  · rw [if_pos hfile, if_neg (by simp [hfile])]
    cases readDocument around path with
    | error e => exact reads_default rfl rfl _
    | ok d => exact reads_ofDocument path d
  · rw [if_neg hfile, if_pos (by simpa using hfile)]
    exact reads_default rfl rfl []

end Configuration

end File

/-! ## The layers -/

namespace Configuration

open Settings (merged)

variable (around : Surroundings) (file : Text)

/-- What the configuration file gives. -/
def fileLayer : List Assignment :=
  (fieldsOf (document? around (expandHome around file))).given

/-- What ends the run that reads the configuration file. -/
def fileFault? : Option ValueFault :=
  faultOf (document? around (expandHome around file))

/-- What the variable gives. -/
def variableLayer (setting : Option Text) : List Assignment :=
  match setting.bind (Text.integer? 10) with
  | some n => if n = 1 ∨ n = 2 then [.lunLevel n] else []
  | none => []

theorem settings_applyVariable (setting : Option Text) (l : Loaded) :
    (applyVariable setting l).settings =
      (variableLayer setting).foldl Assignment.apply l.settings := by
  unfold applyVariable variableLayer
  split
  · rfl
  · rfl
  · rename_i value hvalue
    rw [Option.bind_some]
    cases Text.integer? 10 value with
    | none => rfl
    | some n =>
      by_cases hn : n = 1 ∨ n = 2
      · simp only [if_pos hn]
        rfl
      · simp only [if_neg hn]
        rfl

theorem hasValues_applyVariable (setting : Option Text) (l : Loaded) :
    (applyVariable setting l).hasValues = l.hasValues := by
  unfold applyVariable
  split
  · rfl
  · rfl
  · split
    · rfl
    · split
      · rfl
      · rfl

end Configuration

namespace Invocation

/-- What the options give. -/
def layer (inv : Invocation) : List Assignment :=
  (inv.sysfsRoot.filter fun t => !t.isEmpty).toList.map .sysfsRoot ++
    (inv.deviceRoot.filter fun t => !t.isEmpty).toList.map .deviceRoot ++
    (if inv.lunHex = 0 then [] else [.lunLevel (min inv.lunHex 2)]) ++
    (if inv.identity = 0 then [] else [.identityLevel inv.identity]) ++
    (if inv.noNvme then [.noNvme true] else []) ++
    (if 1 < inv.size then [.sizeUnits "binary"] else [])

theorem applyTo_eq (inv : Invocation) (s : Settings) :
    inv.applyTo s = inv.layer.foldl Assignment.apply s := by
  have hsysfs (s : Settings) :
      ((inv.sysfsRoot.filter fun t => !t.isEmpty).toList.map .sysfsRoot).foldl Assignment.apply s =
        { s with sysfsRoot := given inv.sysfsRoot s.sysfsRoot } := by
    cases inv.sysfsRoot with
    | none => rfl
    | some t => cases t <;> rfl
  have hdevice (s : Settings) :
      ((inv.deviceRoot.filter fun t => !t.isEmpty).toList.map .deviceRoot).foldl
        Assignment.apply s = { s with deviceRoot := given inv.deviceRoot s.deviceRoot } := by
    cases inv.deviceRoot with
    | none => rfl
    | some t => cases t <;> rfl
  have hlun (s : Settings) :
      (if inv.lunHex = 0 then [] else [.lunLevel (min inv.lunHex 2)]).foldl Assignment.apply s =
        { s with lunLevel := if inv.lunHex = 0 then s.lunLevel else min inv.lunHex 2 } := by
    split <;> rfl
  have hidentity (s : Settings) :
      (if inv.identity = 0 then [] else [.identityLevel inv.identity]).foldl Assignment.apply s =
        { s with
          identityLevel := if inv.identity = 0 then s.identityLevel else inv.identity } := by
    split <;> rfl
  have hnvme (s : Settings) :
      (if inv.noNvme then [.noNvme true] else []).foldl Assignment.apply s =
        { s with noNvme := s.noNvme || inv.noNvme } := by
    cases inv.noNvme with
    | false => rw [Bool.or_false]; rfl
    | true => rw [Bool.or_true]; rfl
  have hsize (s : Settings) :
      (if 1 < inv.size then [.sizeUnits "binary"] else []).foldl Assignment.apply s =
        { s with sizeUnits := if 1 < inv.size then "binary" else s.sizeUnits } := by
    split <;> rfl
  rw [layer, List.foldl_append, List.foldl_append, List.foldl_append, List.foldl_append,
    List.foldl_append, hsysfs, hdevice, hlun, hidentity, hnvme, hsize]
  rfl

end Invocation

namespace Configuration

open Settings (merged)

/-- A configuration file with these fields, and a variable that asks for all bytes of a unit. -/
def withFile (fields : List (Text × Value)) : Surroundings where
  tree := Tree.put {} (Path.ofText "/home/user/.config/scsi_topology.conf") (.file [])
  home := "/home/user"
  lunVariable := some "2"
  document := fun _ => some (.value (.mapping fields))

end Configuration
end StorageAtlas
