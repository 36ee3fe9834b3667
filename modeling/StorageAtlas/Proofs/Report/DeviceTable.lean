import StorageAtlas.Proofs.Listing.Order
import StorageAtlas.Proofs.Report.DeviceRows

/-!
The lines of a run that prints a table of devices. There are two more than devices unless
rows split; attributes never split one, and the text of an identity does if it comes from
a designator that is a text.
-/

namespace StorageAtlas

open Text (OneLine)

namespace Invocation

/-- Does a run with these settings print nothing but a table, and is it a table of these devices? -/
structure Tabulates (inv : Invocation) (around : Surroundings) (f : AddressFilter)
    (settings : Settings) (records : List Record) : Prop where
  json : inv.json = false
  long : inv.long = false
  devices : inv.wantsHosts = false
  loaded : ∃ file loaded, inv.configFile = .ok file ∧ Configuration.load around file = .ok loaded ∧
    inv.applyTo loaded.settings = settings
  listed : ((inv.session settings).listAll around.tree f (inv.subjects settings f)).1 = .ok records
  found : records ≠ []

variable {inv : Invocation} {around : Surroundings} {f : AddressFilter} {settings : Settings}
  {records : List Record}

/-- What holds of every listing of units and of namespaces holds of the table. -/
theorem Tabulates.forall_mem (h : inv.Tabulates around f settings records) {p : Record → Prop}
    (hp : ∀ what part, what = .units ∨ what = .namespaces →
      ((inv.session settings).view around.tree).listed f what = .ok part → ∀ r ∈ part, p r) :
    ∀ r ∈ records, p r := by
  have hlisted := h.listed
  rw [Session.listAll_fst] at hlisted
  obtain ⟨scsi, nvme, rfl, hscsi, hnvme⟩ := View.exists_parts_of_listedAll hlisted
  rw [h.devices] at hscsi hnvme
  refine List.forall_mem_append.2 ⟨?_, ?_⟩
  · cases hscsi with
    | leftOut => exact List.forall_mem_nil _
    | listed _ hpart => exact hp .units scsi (.inl rfl) hpart
  · cases hnvme with
    | leftOut => exact List.forall_mem_nil _
    | listed _ hpart => exact hp .namespaces nvme (.inr rfl) hpart

theorem Tabulates.exists_format (h : inv.Tabulates around f settings records) (form : LunFormat) :
    ∀ r ∈ records, ∃ t, r.address.format form = .ok t :=
  h.forall_mem fun _ _ _ hpart _ hr => (View.consistent_iff_of_listed hpart hr).1.exists_format form

theorem Tabulates.textsTidy (h : inv.Tabulates around f settings records) :
    ∀ r ∈ records, r.TextsTidy := by
  refine h.forall_mem fun what part hwhat hpart => ?_
  refine View.forall_mem_listed (fun a name r hr => ?_) (fun controller u _ => ?_) hwhat hpart
  · exact View.textsTidy_unitRecord hr
  · exact View.textsTidy_namespaceRecord _ _ _

theorem Tabulates.tidy (h : inv.Tabulates around f settings records)
    (hnames : around.tree.NamesOneLine) (hdir : OneLine settings.deviceRoot)
    (hne : settings.deviceRoot ≠ []) : ∀ r ∈ records, r.Tidy := by
  have hview := Session.namesOneLine_view (s := inv.session settings) rfl rfl hnames hdir hne
  refine h.forall_mem fun what part hwhat hpart => ?_
  refine View.forall_mem_listed (fun a name r hr => ?_) (fun controller u hu => ?_) hwhat hpart
  · exact View.tidy_unitRecord hview hr
  · exact View.tidy_namespaceRecord hview hu

theorem oneLine_units (inv : Invocation) (settings : Settings) :
    ∀ unit ∈ (inv.reportOptions settings).sizeScale.units, OneLine unit := by
  simp only [reportOptions]
  split
  · decide
  · decide

/-- Such a run ends well, and its output is the lines of the table. -/
theorem Tabulates.exists_outcome (h : inv.Tabulates around f settings records) :
    ∃ outcome lines, inv.answer around f = .ok outcome ∧ outcome.output = unlines lines ∧
      Report.tableLines (inv.reportOptions settings) false records = .ok lines := by
  obtain ⟨file, loaded, hfile, hloaded, hsettings⟩ := h.loaded
  obtain ⟨rows, hrows⟩ := exists_mapM_eq_ok_iff.2 fun r hr =>
    (Report.exists_row_iff (inv.reportOptions settings) false r).2 fun _ => h.exists_format _ r hr
  have htable := Report.tableLines_eq_ruled hrows
  have hsome : records.isEmpty = false := List.isEmpty_eq_false_iff.2 h.found
  simp only [answer, hfile, hloaded, hsettings, h.listed, h.json, reportLines, hsome, h.devices,
    h.long, htable, bind, Except.bind, pure, Except.pure, Bool.false_eq_true, if_false,
    List.append_nil]
  exact ⟨_, _, rfl, rfl, rfl⟩

/-- A table of devices has two lines and one for each device, and further ones exactly if rows split.
In any tree attributes are on one line, and so are identities but those that are texts themselves,
of names and vendors. Where names and the device directory are on one line, the rows that split are
those that say an identity with a line feed in it. -/
theorem lineCount_of_tabulates (h : inv.Tabulates around f settings records) :
    ∃ outcome, inv.answer around f = .ok outcome ∧
      records.length + 2 ≤ outcome.output.count '\n' ∧
      (outcome.output.count '\n' = records.length + 2 ↔
        ∀ r ∈ records, ¬ Report.Splits (inv.reportOptions settings) r) ∧
      (∀ r ∈ records, r.attributes.All OneLine ∧ ∀ i, r.identity = some i → ¬ OneLine i.text →
        i.kind = .scsiName ∨ i.kind = .t10) ∧
      (around.tree.NamesOneLine → OneLine settings.deviceRoot → settings.deviceRoot ≠ [] →
        (outcome.output.count '\n' = records.length + 2 ↔
          ∀ r ∈ records, Report.SaysIdentity (inv.reportOptions settings) r →
            ∀ i, r.identity = some i → OneLine i.text)) := by
  obtain ⟨outcome, lines, hanswer, houtput, hlines⟩ := h.exists_outcome
  obtain ⟨hle, hiff⟩ := Report.count_feed_tableLines hlines
  rw [← houtput] at hle hiff
  refine ⟨outcome, hanswer, hle, hiff, ?_, ?_⟩
  · intro r hr
    obtain ⟨hattributes, hidentity⟩ := h.textsTidy r hr
    exact ⟨hattributes, fun i hi => (hidentity i hi).kind_of_not_oneLine⟩
  · intro hnames hdir hne
    rw [hiff]
    refine forall₂_congr fun r hr => ?_
    exact Report.not_splits_iff (h.tidy hnames hdir hne r hr) (oneLine_units inv settings)
      (h.exists_format _ r hr)

/-- A unit whose name has a line feed in it. -/
def brokenName : Descriptor := ⟨0, 0, 3, false, 0, 8, [0x69, 0x71, 0x6e, 0x2e, 0x61, 0x0a, 0x62]⟩

def withBrokenName : Surroundings where
  tree :=
    [("/sys/bus/scsi/devices/0:0:0:0", Node.directory true),
      ("/sys/class/scsi_device/0:0:0:0/device/vpd_pg83", .file (Page.encode [brokenName]))].foldl
      (fun t (path, node) => t.put (Path.ofText path) node) {}
  home := "/home/user"
  lunVariable := none
  document := fun _ => none

theorem load_withBrokenName :
    Configuration.load withBrokenName Configuration.defaultFile = .ok {} := by
  have hnone : withBrokenName.tree.exists? "/home/user/.config/scsi_topology.conf" = false := by
    decide +kernel
  show (Configuration.ofFile withBrokenName "/home/user/.config/scsi_topology.conf").map _ = _
  rw [Configuration.ofFile, hnone]
  rfl

/-- Where the identity is not asked for, its line feed does no harm. -/
theorem lineCount_of_tabulates_withBrokenName :
    ∃ r outcome, Tabulates {} withBrokenName {} {} [r] ∧
      r.identity = some { kind := .scsiName, value := "iqn.a\nb" } ∧
      answer {} withBrokenName {} = .ok outcome ∧ outcome.output.count '\n' = 3 := by
  have hidentity : ((session {} {}).listAll withBrokenName.tree {} (subjects {} {} {})).1.map
      (List.map Record.identity) = .ok [some { kind := .scsiName, value := "iqn.a\nb" }] := by
    decide +kernel
  obtain ⟨records, hlisted, hidentity⟩ := exists_of_map_eq_ok hidentity
  obtain ⟨r, rfl, hr⟩ := List.map_eq_singleton_iff.1 hidentity
  have htable : Tabulates {} withBrokenName {} {} [r] :=
    ⟨rfl, rfl, rfl, ⟨_, {}, rfl, load_withBrokenName, rfl⟩, hlisted, by simp⟩
  obtain ⟨outcome, hanswer, -, -, -, hcount⟩ := lineCount_of_tabulates htable
  refine ⟨r, outcome, htable, hr, hanswer, ?_⟩
  refine (hcount (by decide +kernel) (by decide) (by decide)).2 fun q _ hsays => ?_
  rcases hsays.2 with h | ⟨h, -⟩ <;> cases h

/-- Where it is asked for, one device takes two lines of the table. -/
theorem lineCount_of_brokenName :
    ∃ r outcome, Tabulates { identity := 1 } withBrokenName {} { identityLevel := 1 } [r] ∧
      answer { identity := 1 } withBrokenName {} = .ok outcome ∧
      outcome.output =
        ("Address    Type  Vendor  Model  Rev  Identity  Device\n" ++
          "-----------------------------------------------------\n" ++
          "[0:0:0:0]  -     ?       ?      ?    iqn.a\nb   -\n" : String) ∧
      outcome.output.count '\n' ≠ [r].length + 2 := by
  have hname : ((session {} {}).listAll withBrokenName.tree {} (subjects {} {} {})).1.map
      (List.map Record.name) = .ok ["0:0:0:0"] := by decide +kernel
  obtain ⟨records, hlisted, hname⟩ := exists_of_map_eq_ok hname
  obtain ⟨r, rfl, -⟩ := List.map_eq_singleton_iff.1 hname
  have houtput : (answer { identity := 1 } withBrokenName {}).map Outcome.output =
      .ok ("Address    Type  Vendor  Model  Rev  Identity  Device\n" ++
          "-----------------------------------------------------\n" ++
          "[0:0:0:0]  -     ?       ?      ?    iqn.a\nb   -\n" : String) := by decide +kernel
  obtain ⟨outcome, hanswer, houtput⟩ := exists_of_map_eq_ok houtput
  have htable : Tabulates { identity := 1 } withBrokenName {} { identityLevel := 1 } [r] :=
    ⟨rfl, rfl, rfl, ⟨_, {}, rfl, load_withBrokenName, rfl⟩, hlisted, by simp⟩
  refine ⟨r, outcome, htable, hanswer, houtput, ?_⟩
  rw [houtput, List.length_singleton]
  decide +kernel

end Invocation
end StorageAtlas
