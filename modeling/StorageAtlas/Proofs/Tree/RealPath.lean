import StorageAtlas.Proofs.Tree.Paths
import StorageAtlas.Proofs.Tree.Relocation

/-!
The texts of places. A place that a lookup ends at stands in the tree with all
that is above it, so its text has a part for each name and leads back to it, and
going up from the text is going up from the place.
-/

namespace StorageAtlas

/-! ## Texts -/

/-- The names of a place with a slash before each; the root has none. -/
def Path.front (place : Path) : Text := place.reverse.flatMap fun name => '/' :: name

namespace Path

theorem front_append (below place : Path) :
    front (below ++ place) = front place ++ front below := by
  rw [front, List.reverse_append, List.flatMap_append]
  rfl

theorem front_cons (name : Text) (place : Path) :
    front (name :: place) = front place ++ '/' :: name := by
  simp [front]

theorem text_cons (name : Text) (place : Path) :
    text (name :: place) = front place ++ '/' :: name := by
  rw [← front_cons]
  rfl

/-- The names from a place down, with slashes between them. -/
def below (place : Path) : Text := Text.join ['/'] place.reverse

theorem front_eq_below {place : Path} (h : place ≠ []) : front place = '/' :: below place := by
  have hnames : ∀ {names : List Text}, names ≠ [] →
      names.flatMap (fun name => '/' :: name) = '/' :: Text.join ['/'] names := by
    intro names hne
    induction names with
    | nil => exact absurd rfl hne
    | cons name rest ih =>
      cases rest with
      | nil => simp [Text.join]
      | cons other rest =>
        rw [List.flatMap_cons, ih (by simp)]
        simp [Text.join]
  exact hnames (List.reverse_ne_nil_iff.2 h)

/-- What stands below a directory has a text that begins like the one of the directory. -/
theorem text_append {place : Path} (h : place ≠ []) (directory : Path) :
    text (place ++ directory) = front directory ++ '/' :: below place := by
  rw [← front_eq_below h, ← front_append]
  cases place with
  | nil => exact absurd rfl h
  | cons name rest => rfl

theorem splitOn_front {place : Path} (h : ∀ name ∈ place, '/' ∉ name) :
    Text.splitOn '/' (front place) = [] :: place.reverse := by
  induction place with
  | nil => rfl
  | cons name rest ih =>
    obtain ⟨hname, hrest⟩ := List.forall_mem_cons.1 h
    rw [front_cons, Text.splitOn_append_sep, ih hrest, Text.splitOn_of_not_mem hname]
    simp

theorem splitOn_below {place : Path} (hne : place ≠ []) (h : ∀ name ∈ place, '/' ∉ name) :
    Text.splitOn '/' (below place) = place.reverse :=
  Text.splitOn_join (List.reverse_ne_nil_iff.2 hne) fun name hname =>
    h name (List.mem_reverse.1 hname)

theorem baseName_text {name : Text} (h : '/' ∉ name) (place : Path) :
    PathText.baseName (text (name :: place)) = name := by
  rw [text_cons, PathText.baseName, Text.afterLast_append h]

/-- Without the last name the text of a place is the one of the directory that holds it. -/
theorem parent_text {name : Text} {place : Path} (h : ∀ other ∈ name :: place, IsFileName other) :
    PathText.parent (text (name :: place)) = text place := by
  obtain ⟨hname, hplace⟩ := List.forall_mem_cons.1 h
  have hslash : '/' ∉ name := hname.2.2.2
  have hbefore : (text (name :: place)).take ((text (name :: place)).length -
      (PathText.baseName (text (name :: place))).length) = front place ++ ['/'] := by
    have hsplit : front place ++ '/' :: name = (front place ++ ['/']) ++ name := by simp
    rw [baseName_text hslash, text_cons, hsplit, List.length_append, Nat.add_sub_cancel,
      List.take_left]
  rw [PathText.parent, hbefore]
  cases place with
  | nil => rfl
  | cons other rest =>
    obtain ⟨hother, -⟩ := List.forall_mem_cons.1 hplace
    obtain ⟨start, last, rfl⟩ : ∃ start last, other = start ++ [last] :=
      ⟨_, _, (List.dropLast_concat_getLast hother.1).symm⟩
    have hlast : last ≠ '/' := by
      rintro rfl
      exact hother.2.2.2 (by simp)
    have hend : text ((start ++ [last]) :: rest) = (front rest ++ '/' :: start) ++ [last] := by
      rw [text_cons]
      simp
    rw [hend, front_cons]
    simp [Text.dropEndWhile, hlast]

end Path

namespace Tree

variable {t : Tree}

/-! ## Places that lookups end at -/

/-- What holds of the start of a walk and is kept by every part holds of its end. -/
theorem walkWith_invariant {P : Path → Prop} {follow : Bool}
    {onLink : Path → List Text → Except LookupError Path} (htail : ∀ x, P x → P x.tail)
    (hchild : ∀ name x node, P x → t.isDirectory x = true → t.node? (name :: x) = some node →
      (follow = true → ∀ target, node ≠ .link target) → P (name :: x))
    (honLink : ∀ start parts place, start = [] ∨ P start → onLink start parts = .ok place → P place)
    {here place : Path} {parts : List Text} (hhere : P here)
    (h : t.walkWith follow onLink here parts = .ok place) : P place := by
  induction parts generalizing here with
  | nil => exact Except.ok.inj h ▸ hhere
  | cons part rest ih =>
    rw [walkWith] at h
    cases hdir : t.isDirectory here with
    | false => simp [hdir] at h
    | true =>
      simp only [hdir, Bool.not_true, Bool.false_eq_true, if_false] at h
      split at h
      · exact ih hhere h
      · split at h
        · exact ih (htail _ hhere) h
        · split at h
          · cases h
          · rename_i target hnode
            split at h
            · rename_i hend
              have hstop : follow = false := by
                simp only [Bool.and_eq_true, Bool.not_eq_true'] at hend
                exact hend.2
              refine Except.ok.inj h ▸ hchild _ _ _ hhere hdir hnode fun hfollow => ?_
              rw [hstop] at hfollow
              cases hfollow
            · refine honLink _ _ _ ?_ h
              split
              · exact .inl rfl
              · exact .inr hhere
          · rename_i node hlink hnode
            exact ih (hchild _ _ _ hhere hdir hnode fun _ target he => hlink target he) h

/-- Every name on the way to the place is there. -/
def Stands (t : Tree) : Path → Prop
  | [] => True
  | name :: place => Stands t place ∧ (t.node? (name :: place)).isSome = true

theorem Stands.of_append {below place : Path} (h : t.Stands (below ++ place)) : t.Stands place := by
  induction below with
  | nil => exact h
  | cons name rest ih => exact ih h.1

theorem stands_of_walk {follow : Bool} {links : Nat} {here place : Path} {parts : List Text}
    (hhere : t.Stands here) (h : t.walk follow links here parts = .ok place) : t.Stands place := by
  have htail : ∀ x, t.Stands x → t.Stands x.tail := by
    intro x hx
    cases x with
    | nil => exact hx
    | cons name rest => exact hx.1
  have hchild : ∀ name x node, t.Stands x → t.isDirectory x = true →
      t.node? (name :: x) = some node → (follow = true → ∀ target, node ≠ .link target) →
      t.Stands (name :: x) := by
    intro name x node hx _ hnode _
    exact ⟨hx, by rw [hnode]; rfl⟩
  induction links generalizing here place parts with
  | zero =>
    refine walkWith_invariant htail hchild ?_ hhere h
    intro start parts place _ herror
    cases herror
  | succ links ih =>
    refine walkWith_invariant htail hchild ?_ hhere h
    rintro start parts place (rfl | hstart) hnext
    · exact ih (show t.Stands [] from trivial) hnext
    · exact ih hstart hnext

theorem stands_of_find {path : Text} {follow : Bool} {place : Path}
    (h : t.find path follow = .ok place) : t.Stands place := by
  unfold find at h
  split at h
  · cases h
  · exact stands_of_walk (show t.Stands [] from trivial) h

theorem isFileName_of_stands (hnames : t.NamesFiles) {place : Path} (h : t.Stands place) :
    ∀ name ∈ place, Path.IsFileName name := by
  induction place with
  | nil => simp
  | cons name rest ih =>
    obtain ⟨node, hnode⟩ := Option.isSome_iff_exists.1 h.2
    exact List.forall_mem_cons.2 ⟨isFileName_of_namesFiles hnames hnode, ih h.1⟩

/-- The way to the place is made of directories, and no link is on it. -/
def LinkFree (t : Tree) : Path → Prop
  | [] => True
  | name :: place => LinkFree t place ∧ t.isDirectory place = true ∧
      ∃ node, t.node? (name :: place) = some node ∧ ∀ target, node ≠ .link target

theorem linkFree_of_leadsTo {front : Text} {place : Path} (h : t.LeadsTo front place) :
    t.LinkFree place := by
  refine walkWith_invariant (P := t.LinkFree) ?_ ?_ ?_ (show t.LinkFree [] from trivial) h
  · intro x hx
    cases x with
    | nil => exact hx
    | cons name rest => exact hx.1
  · intro name x node hx hdir hnode hlink
    exact ⟨hx, hdir, node, hnode, hlink rfl⟩
  · intro start parts place _ herror
    cases herror

theorem LinkFree.stands {place : Path} (h : t.LinkFree place) : t.Stands place := by
  induction place with
  | nil => trivial
  | cons name rest ih =>
    obtain ⟨hrest, -, node, hnode, -⟩ := h
    exact ⟨ih hrest, by rw [hnode]; rfl⟩

/-- The names of such a place lead to it. -/
theorem LinkFree.walkWith (hnames : t.NamesFiles) {place : Path} (h : t.LinkFree place) :
    t.walkWith true (fun _ _ => .error .tooManyLinks) [] place.reverse = .ok place := by
  induction place with
  | nil => rfl
  | cons name rest ih =>
    obtain ⟨hrest, hdir, node, hnode, hlink⟩ := h
    obtain ⟨hne, hdot, hdots, -⟩ := isFileName_of_namesFiles hnames hnode
    rw [List.reverse_cons, walkWith_append (ih hrest), Tree.walkWith]
    simp only [hdir, hne, hdot, hdots, hnode, Bool.not_true, Bool.false_eq_true, if_false, or_self]
    cases node with
    | link target => exact absurd rfl (hlink target)
    | _ => rfl

/-- A place that a text leads to without links is led to by its own text too. -/
theorem LeadsTo.front {front : Text} {place : Path} (hnames : t.NamesFiles)
    (h : t.LeadsTo front place) : t.LeadsTo (Path.front place) place := by
  have hfree := linkFree_of_leadsTo h
  have hslash : ∀ name ∈ place, '/' ∉ name :=
    fun name hname => (isFileName_of_stands hnames hfree.stands name hname).2.2.2
  have hroot : t.isDirectory [] = true := rfl
  have hwalk := hfree.walkWith hnames
  rw [LeadsTo, Path.splitOn_front hslash]
  show t.walkWith true _ [] ([] :: place.reverse) = _
  rw [Tree.walkWith]
  simpa [hroot] using hwalk

end Tree
end StorageAtlas
