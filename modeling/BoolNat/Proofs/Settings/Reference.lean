import BoolNat.Settings.Load
set_option autoImplicit false

/-! # What a reference draws on

What a value stands for is a matter of the names it refers to (`Dotenv.expand_congr`).  Take names
such that the values under them refer to none but these (`Dotenv.IsClosed`).  Then expanding all
values and leaving out what has another name may be done in either order
(`Dotenv.restrict_expandAll`), so what a file and an environment give under these names is not
touched by anything else in them (`Dotenv.find_read_congr`).
-/

namespace BoolNat

/-- The entries under some names. -/
def restrict {α : Type} (names : String → Bool) (entries : List (String × α)) :
    List (String × α) :=
  entries.filter fun entry => names entry.1

section
variable {α : Type} {names : String → Bool} {name : String}

theorem restrict_append (names : String → Bool) (entries more : List (String × α)) :
    restrict names (entries ++ more) = restrict names entries ++ restrict names more :=
  List.filter_append entries more

theorem restrict_cons_of_pos {entry : String × α} (h : names entry.1 = true)
    (rest : List (String × α)) :
    restrict names (entry :: rest) = entry :: restrict names rest :=
  List.filter_cons_of_pos h

theorem restrict_cons_of_neg {entry : String × α} (h : ¬ names entry.1 = true)
    (rest : List (String × α)) : restrict names (entry :: rest) = restrict names rest :=
  List.filter_cons_of_neg h

theorem lookup_cons_of_neg {key : String} (hkey : ¬ names key = true) (h : names name = true)
    (value : α) (rest : List (String × α)) :
    ((key, value) :: rest).lookup name = rest.lookup name := by
  have hne : (name == key) = false := by
    rw [beq_eq_false_iff_ne]
    rintro rfl
    exact hkey h
  rw [List.lookup_cons, hne]

theorem lookup_restrict (h : names name = true) (entries : List (String × α)) :
    (restrict names entries).lookup name = entries.lookup name := by
  induction entries with
  | nil => rfl
  | cons entry rest ih =>
    obtain ⟨key, value⟩ := entry
    by_cases hkey : names key = true
    · rw [restrict_cons_of_pos (by exact hkey), List.lookup_cons, List.lookup_cons, ih]
    · rw [restrict_cons_of_neg (by exact hkey), lookup_cons_of_neg hkey h, ih]

theorem lookup_reverse_congr {entries entries' : List (String × α)}
    (h : restrict names entries = restrict names entries') (hname : names name = true) :
    entries.reverse.lookup name = entries'.reverse.lookup name := by
  rw [← lookup_restrict hname, ← lookup_restrict hname entries'.reverse, restrict, restrict,
    List.filter_reverse, List.filter_reverse]
  exact congrArg (fun found => found.reverse.lookup name) h

end

namespace Dotenv

theorem expand_congr {lookup lookup' : String → Option (Option String)} {value : String}
    (h : ∀ name ∈ references value, lookup name = lookup' name) :
    expand lookup value = expand lookup' value := by
  have hpieces : ∀ piece ∈ pieces value, piece.expand lookup = piece.expand lookup' := by
    intro piece hpiece
    cases piece with
    | char c => rfl
    | reference name fallback =>
      have hname := h (String.ofList name) (List.mem_filterMap.mpr ⟨_, hpiece, rfl⟩)
      rw [Piece.expand, Piece.expand, hname]
  rw [expand, expand, List.flatMap_def, List.flatMap_def, List.map_congr_left hpieces]

/-- The values that are bound to the names refer to none but the names. -/
def IsClosed (names : String → Bool) (bindings : List Binding) : Prop :=
  ∀ binding ∈ bindings, names binding.1 = true →
    ∀ value ∈ binding.2, ∀ name ∈ references value, names name = true

instance (names : String → Bool) (bindings : List Binding) : Decidable (IsClosed names bindings) :=
  inferInstanceAs (Decidable (∀ binding ∈ bindings, names binding.1 = true →
    ∀ value ∈ binding.2, ∀ name ∈ references value, names name = true))

section
variable {names : String → Bool} {bindings bindings' : List Binding}
  {environment environment' : List (String × String)}

theorem isClosed_restrict : IsClosed names (restrict names bindings) ↔ IsClosed names bindings := by
  constructor
  · intro h binding hmem hname
    exact h binding (List.mem_filter.mpr ⟨hmem, hname⟩) hname
  · intro h binding hmem
    exact h binding (List.mem_filter.mp hmem).1

/-- What has other names may be left out before or after the values are expanded. -/
theorem restrict_expandAll (hclosed : IsClosed names bindings)
    (henvironment : restrict names environment = restrict names environment')
    {earlier earlier' : List Binding}
    (hearlier : ∀ name, names name = true → earlier.lookup name = earlier'.lookup name) :
    restrict names (expandAll environment earlier bindings) =
      expandAll environment' earlier' (restrict names bindings) := by
  induction bindings generalizing earlier earlier' with
  | nil => rfl
  | cons binding rest ih =>
    obtain ⟨name, value⟩ := binding
    obtain ⟨hvalue, hrest⟩ := List.forall_mem_cons.mp hclosed
    by_cases hname : names name = true
    · have hexpand : value.map (expand (lookup environment earlier)) =
          value.map (expand (lookup environment' earlier')) := by
        refine Option.map_congr fun text htext => expand_congr fun referred hreferred => ?_
        have hin := hvalue hname text htext referred hreferred
        rw [lookup, lookup, hearlier referred hin, lookup_reverse_congr henvironment hin]
      have hnext : ∀ other, names other = true →
          ((name, value.map (expand (lookup environment earlier))) :: earlier).lookup other =
            ((name, value.map (expand (lookup environment' earlier'))) :: earlier').lookup other :=
        fun other hother => by
          rw [hexpand, List.lookup_cons, List.lookup_cons, hearlier other hother]
      rw [expandAll, restrict_cons_of_pos (by exact hname), ih hrest hnext,
        restrict_cons_of_pos (by exact hname), expandAll, hexpand]
    · have hnext : ∀ other, names other = true →
          ((name, value.map (expand (lookup environment earlier))) :: earlier).lookup other =
            earlier'.lookup other := fun other hother => by
        rw [lookup_cons_of_neg hname hother, hearlier other hother]
      rw [expandAll, restrict_cons_of_neg (by exact hname), ih hrest hnext,
        restrict_cons_of_neg (by exact hname)]

theorem mem_eraseDups_filter {fits : String → Bool} {entries : List String} {name : String}
    (h : (entries.filter fits).eraseDups.getLast? = some name) : fits name = true :=
  (List.mem_filter.mp (List.mem_eraseDups.mp (List.mem_of_getLast? h))).2

/-- Whoever asks for some of the names does not see the others. -/
theorem find_restrict {fits : String → Bool} (h : ∀ name, fits name = true → names name = true)
    (bindings : List Binding) : find fits (restrict names bindings) = find fits bindings := by
  have hnames : ((restrict names bindings).map (·.1)).filter fits =
      (bindings.map (·.1)).filter fits := by
    have hboth : ∀ binding ∈ bindings,
        ((fits ∘ Prod.fst) binding && names binding.1) = (fits ∘ Prod.fst) binding := by
      intro binding _
      cases hfits : fits binding.1 with
      | true => simp [hfits, h _ hfits]
      | false => simp [hfits]
    rw [restrict, List.filter_map, List.filter_map, List.filter_filter,
      List.filter_congr hboth]
  unfold find
  rw [hnames]
  cases hlast : ((bindings.map (·.1)).filter fits).eraseDups.getLast? with
  | none => rfl
  | some name =>
    have hname := h name (mem_eraseDups_filter hlast)
    have hreverse : (restrict names bindings).reverse = restrict names bindings.reverse :=
      (List.filter_reverse ..).symm
    simp only [hreverse, lookup_restrict hname]

end

/-- What a file gives under some names is a matter of what the file and the environment have under
these names, if the values there refer to no others. -/
theorem find_read_congr {names fits : String → Bool}
    (hfits : ∀ name, fits name = true → names name = true)
    {environment environment' : List (String × String)} {file file' : Option String}
    (hclosed : IsClosed names (bindings file))
    (henvironment : restrict names environment = restrict names environment')
    (hfile : restrict names (bindings file) = restrict names (bindings file')) :
    find fits (read environment file) = find fits (read environment' file') := by
  have hclosed' : IsClosed names (bindings file') := by
    rw [← isClosed_restrict, ← hfile, isClosed_restrict]
    exact hclosed
  have hread : restrict names (read environment file) =
      restrict names (read environment' file') := by
    rw [read, read, restrict_expandAll hclosed henvironment fun _ _ => rfl, hfile,
      restrict_expandAll hclosed' rfl fun _ _ => rfl]
  rw [← find_restrict hfits, hread, find_restrict hfits]

end Dotenv

end BoolNat
