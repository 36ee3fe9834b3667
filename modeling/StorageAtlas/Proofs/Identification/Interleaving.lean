import Mathlib.Data.Fin.VecNotation
import Mathlib.Data.Fintype.Basic
import Mathlib.Data.List.FinRange
import Mathlib.Data.List.Sort
import StorageAtlas.Proofs.Identification.NameOverride

/-!
The order in which a device lists its designators. Six families of them are
consulted, each by its association and kind, and of each family only the first
with a code set counts. So what a page is resolved to depends on the order within
each family and on nothing else: not on how the families are interleaved, not on
what is listed besides them, and not on the offsets that come of it.
-/

namespace StorageAtlas

/-! ## Orders and insertions -/

section Lists

variable {α κ : Type} {l l' : List α}

/-- `l'` is `l` in another order, in which elements of the same key follow each other as before. -/
def Reordered (key : α → κ) (l l' : List α) : Prop :=
  ∃ place : Fin l.length ≃ Fin l'.length, (∀ i, l'.get (place i) = l.get i) ∧
    ∀ i j, i < j → key (l.get i) = key (l.get j) → place i < place j

/-- `l'` is `l` with elements of a class put in, anywhere. -/
inductive Inserted (p : α → Prop) : List α → List α → Prop where
  | nil : Inserted p [] []
  | keep {l l' : List α} (a : α) (h : Inserted p l l') : Inserted p (a :: l) (a :: l')
  | insert {l l' : List α} {a : α} (ha : p a) (h : Inserted p l l') : Inserted p l (a :: l')

/-- Where the elements stand that satisfy a test, in ascending order. -/
def positions (p : α → Bool) (l : List α) : List (Fin l.length) :=
  (List.finRange l.length).filter fun i => p (l.get i)

theorem pairwise_positions (p : α → Bool) (l : List α) : (positions p l).Pairwise (· < ·) :=
  (List.pairwise_lt_finRange _).filter _

theorem mem_positions_iff {p : α → Bool} {i : Fin l.length} :
    i ∈ positions p l ↔ p (l.get i) = true := by
  simp [positions]

theorem map_get_positions (p : α → Bool) (l : List α) : (positions p l).map l.get = l.filter p := by
  have h := List.filter_map (p := p) (f := l.get) (l := List.finRange l.length)
  rw [List.map_get_finRange] at h
  exact h.symm

/-- The elements of a key are the same ones in the same order. -/
theorem Reordered.filter_eq [DecidableEq κ] {key : α → κ} (h : Reordered key l l') (k : κ) :
    (l.filter fun a => key a = k) = l'.filter fun a => key a = k := by
  obtain ⟨place, hget, hkeeps⟩ := h
  generalize hp : (fun a => decide (key a = k)) = p
  have hkey {a : α} : p a = true ↔ key a = k := by rw [← hp, decide_eq_true_iff]
  have hmoved : ((positions p l).map place).Pairwise (· < ·) := by
    rw [List.pairwise_map]
    refine (pairwise_positions p l).imp_of_mem fun {i j} hi hj hij => hkeeps i j hij ?_
    rw [hkey.1 (mem_positions_iff.1 hi), hkey.1 (mem_positions_iff.1 hj)]
  have hmem : ∀ j, j ∈ (positions p l).map place ↔ j ∈ positions p l' := by
    intro j
    rw [List.mem_map, mem_positions_iff]
    constructor
    · rintro ⟨i, hi, rfl⟩
      rw [hget]
      exact mem_positions_iff.1 hi
    · intro hj
      refine ⟨place.symm j, mem_positions_iff.2 ?_, place.apply_symm_apply j⟩
      rwa [← hget, place.apply_symm_apply]
  calc l.filter p
      = (positions p l).map l.get := (map_get_positions p l).symm
    _ = ((positions p l).map place).map l'.get := by
      rw [List.map_map]
      exact List.map_congr_left fun i _ => (hget i).symm
    -- both list the positions of the key in ascending order
    _ = (positions p l').map l'.get := by
      rw [hmoved.eq_of_mem_iff (pairwise_positions p l') hmem]
    _ = l'.filter p := map_get_positions p l'

theorem Inserted.filter_eq {p : α → Prop} (h : Inserted p l l') {q : α → Bool}
    (hq : ∀ a, p a → q a = false) : l.filter q = l'.filter q := by
  induction h with
  | nil => rfl
  | keep a h ih => rw [List.filter_cons, List.filter_cons, ih]
  | insert ha h ih => rw [List.filter_cons, hq _ ha, ih]; rfl

end Lists

namespace Descriptor

/-- A descriptor wherever it stands. -/
def unplaced (d : Descriptor) : Descriptor := { d with offset := 0 }

def family (d : Descriptor) : Nat × Nat := (d.association, d.kind)

theorem map_unplaced_placed (start : Nat) (ds : List Descriptor) :
    (placed start ds).map unplaced = ds.map unplaced := by
  induction ds generalizing start with
  | nil => rfl
  | cons d ds ih => simp only [placed_cons, List.map_cons, ih, unplaced]

end Descriptor

open Descriptor

namespace Page

/-- The bytes are a page on which these descriptors are found, wherever they stand and however the
page ends. -/
def Lists (bytes : Bytes) (ds : List Descriptor) : Prop :=
  ∃ page found last, ofBytes bytes = .ok page ∧ page.walk.Yields {} found last ∧
    found.map unplaced = ds.map unplaced

theorem lists_encode {ds : List Descriptor} (hfits : ∀ d ∈ ds, d.Fits)
    (hlength : (ds.flatMap Descriptor.encode).length ≤ 65535) (tail : Bytes) :
    Lists (Page.encode ds ++ tail) ds := by
  obtain ⟨page, hpage, hfound, -⟩ := exists_of_encode hfits hlength tail
  refine ⟨page, _, _, hpage, page.yields_descriptors, ?_⟩
  rw [hfound, map_unplaced_placed]

end Page

namespace Identity

/-- The associations and kinds of the descriptors that a page is searched for. -/
def consulted : List (Nat × Nat) := [(0, 1), (0, 2), (0, 3), (0, 8), (0, 10), (1, 8)]

theorem firstOf_congr {ds ds' : List Descriptor} {association kind : Nat}
    (h : (ds.filter fun d => d.family = (association, kind)) =
      ds'.filter fun d => d.family = (association, kind)) (codeSet : Option Nat) :
    firstOf ds association kind codeSet = firstOf ds' association kind codeSet := by
  have hfilter (ds : List Descriptor) : firstOf ds association kind codeSet =
      (ds.filter fun d => d.family = (association, kind)).find? fun d =>
        codeSet.all (d.codeSet = ·) := by
    rw [firstOf, List.find?_filter]
    congr 1
    funext d
    simp [family, Bool.and_assoc]
  rw [hfilter, hfilter, h]

theorem firstOf_unplaced (ds : List Descriptor) (association kind : Nat) (codeSet : Option Nat) :
    firstOf (ds.map unplaced) association kind codeSet =
      (firstOf ds association kind codeSet).map unplaced := by
  rw [firstOf, List.find?_map]
  rfl

theorem ranked_unplaced (ds : List Descriptor) : ranked (ds.map unplaced) = ranked ds := by
  apply ranked_eq_of_rules
  -- no rule looks at an offset, so each one says the same of what is found
  simp only [ranking, List.map_cons, List.map_nil, namedOverIscsi, firstOf_unplaced,
    Option.map_map, Option.bind_map]
  rfl

theorem ranked_congr {ds ds' : List Descriptor}
    (h : ∀ k ∈ consulted, (ds.filter fun d => d.family = k) = ds'.filter fun d => d.family = k) :
    ranked ds = ranked ds' := by
  have hvendor := firstOf_congr (h (0, 1) (by decide)) none
  have heui := firstOf_congr (h (0, 2) (by decide)) (some 1)
  have hnaa := firstOf_congr (h (0, 3) (by decide)) (some 1)
  have hname := firstOf_congr (h (0, 8) (by decide)) (some 3)
  have huuid := firstOf_congr (h (0, 10) (by decide)) (some 1)
  have hport := firstOf_congr (h (1, 8) (by decide)) (some 3)
  apply ranked_eq_of_rules
  simp only [ranking, List.map_cons, List.map_nil, namedOverIscsi, hvendor, heui, hnaa, hname,
    huuid, hport]

theorem ofPage_of_lists {bytes : Bytes} {ds : List Descriptor} (h : Page.Lists bytes ds)
    (wantTag : Bool) (capacity : Option Int) :
    ofPage bytes wantTag capacity = ((ranked ds).withTag wantTag).limit capacity := by
  obtain ⟨page, found, last, hpage, hyields, hfound⟩ := h
  obtain ⟨rfl, -⟩ := hyields.unique page.yields_descriptors
  rw [ofPage_of_descriptors hpage, ← ranked_unplaced, hfound, ranked_unplaced]

/-- A page is resolved to the same identity when its descriptors are put in another order that
keeps each family as it is, and when descriptors of families that are not consulted are put in. -/
theorem ofPage_eq_of_interleaved {bytes bytes' : Bytes} {ds ds' : List Descriptor}
    (h : Page.Lists bytes ds) (h' : Page.Lists bytes' ds')
    (hrelated : Reordered family ds ds' ∨ Inserted (fun d => d.family ∉ consulted) ds ds')
    (wantTag : Bool) (capacity : Option Int) :
    ofPage bytes wantTag capacity = ofPage bytes' wantTag capacity := by
  have hranked : ranked ds = ranked ds' := by
    apply ranked_congr
    intro k hk
    rcases hrelated with hreordered | hinserted
    · exact hreordered.filter_eq k
    · apply hinserted.filter_eq
      intro d hd
      simp only [decide_eq_false_iff_not]
      rintro rfl
      exact hd hk
  rw [ofPage_of_lists h, ofPage_of_lists h', hranked]

/-- The number of a port, which says nothing of the unit. -/
def portNumber : Descriptor := ⟨0, 0, 1, false, 1, 4, [0, 0, 0, 1]⟩

/-- Ports and unit change places, the two ports keep theirs; and the number of a port comes in
between. -/
theorem ofPage_of_portsFirst :
    Page.Lists (Page.encode [iscsiPort, otherPort, unitName, unitNumber])
        [iscsiPort, otherPort, unitName, unitNumber] ∧
      Page.Lists (Page.encode [unitNumber, iscsiPort, unitName, otherPort])
        [unitNumber, iscsiPort, unitName, otherPort] ∧
      Page.Lists (Page.encode [unitNumber, iscsiPort, portNumber, unitName, otherPort])
        [unitNumber, iscsiPort, portNumber, unitName, otherPort] ∧
      ofPage (Page.encode [iscsiPort, otherPort, unitName, unitNumber]) =
        ofPage (Page.encode [unitNumber, iscsiPort, unitName, otherPort]) ∧
      ofPage (Page.encode [unitNumber, iscsiPort, unitName, otherPort]) =
        ofPage (Page.encode [unitNumber, iscsiPort, portNumber, unitName, otherPort]) := by
  have hfirst : Page.Lists (Page.encode [iscsiPort, otherPort, unitName, unitNumber])
      [iscsiPort, otherPort, unitName, unitNumber] := by
    simpa using Page.lists_encode (by decide) (by decide) []
  have hsecond : Page.Lists (Page.encode [unitNumber, iscsiPort, unitName, otherPort])
      [unitNumber, iscsiPort, unitName, otherPort] := by
    simpa using Page.lists_encode (by decide) (by decide) []
  have hthird : Page.Lists (Page.encode [unitNumber, iscsiPort, portNumber, unitName, otherPort])
      [unitNumber, iscsiPort, portNumber, unitName, otherPort] := by
    simpa using Page.lists_encode (by decide) (by decide) []
  have hreordered : Reordered family [iscsiPort, otherPort, unitName, unitNumber]
      [unitNumber, iscsiPort, unitName, otherPort] :=
    ⟨⟨![1, 3, 2, 0], ![3, 0, 2, 1], by decide, by decide⟩, by decide, by decide⟩
  have hinserted : Inserted (fun d => d.family ∉ consulted)
      [unitNumber, iscsiPort, unitName, otherPort]
      [unitNumber, iscsiPort, portNumber, unitName, otherPort] :=
    .keep _ (.keep _ (.insert (by decide) (.keep _ (.keep _ .nil))))
  exact ⟨hfirst, hsecond, hthird,
    ofPage_eq_of_interleaved hfirst hsecond (.inl hreordered) false none,
    ofPage_eq_of_interleaved hsecond hthird (.inr hinserted) false none⟩

end Identity
end StorageAtlas
