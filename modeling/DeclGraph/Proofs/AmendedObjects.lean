import Mathlib
import DeclGraph.Proofs.WrittenJson
import DeclGraph.Wire.Record

/-! What may be changed in the text of a record without changing the record. Keys that name no field may
be added, keys may change places, and a key may go when its value says no more than its absence. A
reader that looks its fields up by name cannot tell such an object from the one it was made of. -/
namespace DeclGraph.Wire

structure Slot where
  name : String
  spare : Json → Prop

namespace Slot

def needed (name : String) : Slot where
  name
  spare _ := False

def optional (name : String) : Slot where
  name
  spare value := value = .null

def defaulted {α : Type} (decode : Json → Option α) (name : String) (default : α) : Slot where
  name
  spare value := decode value = some default

end Slot

/-- One change to the keys of an object. A key stands first when it is added or dropped, which costs
nothing since keys may change places. -/
inductive Amends (slots : List Slot) : List (String × Json) → List (String × Json) → Prop
  | add {entries : List (String × Json)} {key : String} {value : Json}
      (unnamed : key ∉ slots.map Slot.name) (wellFormed : value.WellFormed) :
      Amends slots entries ((key, value) :: entries)
  | reorder {entries entries' : List (String × Json)} (same : entries.Perm entries') :
      Amends slots entries entries'
  | drop {entries : List (String × Json)} {slot : Slot} {value : Json} (listed : slot ∈ slots)
      (spare : slot.spare value) : Amends slots ((slot.name, value) :: entries) entries

def Agrees (slots : List Slot) (entries entries' : List (String × Json)) : Prop :=
  ∀ slot ∈ slots, entries'.lookup slot.name = entries.lookup slot.name ∨
    entries'.lookup slot.name = none ∧
      ∃ value, entries.lookup slot.name = some value ∧ slot.spare value

variable {α : Type} {slots : List Slot} {entries entries' : List (String × Json)} {name : String}

theorem Agrees.required (agrees : Agrees slots entries entries') (listed : Slot.needed name ∈ slots)
    (decode : Json → Option α) :
    Record.required ⟨entries', false⟩ decode name = Record.required ⟨entries, false⟩ decode name := by
  rcases agrees _ listed with same | ⟨-, value, -, spare⟩
  · exact congrArg (·.bind decode) same
  · exact spare.elim

theorem Agrees.optional (agrees : Agrees slots entries entries') (listed : Slot.optional name ∈ slots)
    (decode : Json → Option α) :
    Record.optional ⟨entries', false⟩ decode name = Record.optional ⟨entries, false⟩ decode name := by
  unfold Record.optional
  rcases agrees _ listed with same | ⟨dropped, value, held, spare⟩
  · simp only [Slot.optional] at same
    simp only [same]
  · cases spare
    simp only [Slot.optional] at dropped held
    simp [dropped, held, nullable?]

theorem Agrees.withDefault {decode : Json → Option α} {default : α}
    (agrees : Agrees slots entries entries') (listed : Slot.defaulted decode name default ∈ slots) :
    Record.withDefault ⟨entries', false⟩ decode name default =
      Record.withDefault ⟨entries, false⟩ decode name default := by
  unfold Record.withDefault
  rcases agrees _ listed with same | ⟨dropped, value, held, spare⟩
  · simp only [Slot.defaulted] at same
    simp only [same]
  · simp only [Slot.defaulted] at dropped held spare
    simp only [dropped, held, spare]

theorem lookup_cons_of_ne {entries : List (String × α)} {key own : String} (value : α)
    (apart : key ≠ own) : ((own, value) :: entries).lookup key = entries.lookup key := by
  rw [List.lookup_cons, beq_false_of_ne apart]

theorem lookup_eq_none_of_fresh {entries : List (String × α)} {key : String}
    (fresh : key ∉ entries.map Prod.fst) : entries.lookup key = none := by
  rw [List.lookup_eq_none_iff]
  intro entry member
  have apart : key ≠ entry.1 := fun same => fresh (List.mem_map.2 ⟨entry, member, same.symm⟩)
  simpa using apart

theorem countP_cons_self (value : Json) :
    ((name, value) :: entries).countP (·.1 == name) = entries.countP (·.1 == name) + 1 :=
  List.countP_cons_of_pos (by simp)

theorem countP_cons_of_ne {key : String} (value : Json) (apart : key ≠ name) :
    ((key, value) :: entries).countP (·.1 == name) = entries.countP (·.1 == name) :=
  List.countP_cons_of_neg (by simpa using apart)

theorem fresh_of_single {value : Json}
    (single : ((name, value) :: entries).countP (·.1 == name) ≤ 1) : name ∉ entries.map Prod.fst := by
  intro member
  obtain ⟨entry, inside, rfl⟩ := List.mem_map.1 member
  rw [countP_cons_self] at single
  have absent : entries.countP (·.1 == entry.1) = 0 := by omega
  exact List.countP_eq_zero.1 absent entry inside (by simp)

theorem unrepeated_iff {names : List String} :
    unrepeated names entries = true ↔ ∀ name ∈ names, entries.countP (·.1 == name) ≤ 1 := by
  simp [unrepeated]

theorem lookup_eq_some_iff_mem {value : Json} (single : entries.countP (·.1 == name) ≤ 1) :
    entries.lookup name = some value ↔ (name, value) ∈ entries := by
  induction entries with
  | nil => simp
  | cons entry rest ih =>
      obtain ⟨own, held⟩ := entry
      by_cases same : name = own
      · subst same
        have absent : (name, value) ∉ rest := fun member =>
          fresh_of_single single (List.mem_map.2 ⟨_, member, rfl⟩)
        simp [absent, eq_comm]
      · rw [countP_cons_of_ne held (Ne.symm same)] at single
        rw [lookup_cons_of_ne held same, ih single]
        simp [same]

theorem lookup_of_perm (single : entries.countP (·.1 == name) ≤ 1) (same : entries.Perm entries') :
    entries'.lookup name = entries.lookup name := by
  ext value
  rw [lookup_eq_some_iff_mem single, lookup_eq_some_iff_mem (same.countP_eq _ ▸ single), same.mem_iff]

theorem Amends.wellFormed (amends : Amends slots entries entries')
    (before : (Json.obj entries).WellFormed) : (Json.obj entries').WellFormed := by
  have all := Json.wellFormed_obj_iff.1 before
  cases amends with
  | add unnamed wellFormed => exact .obj (List.forall_mem_cons.2 ⟨wellFormed, all⟩)
  | reorder same => exact .obj fun field member => all field (same.mem_iff.2 member)
  | drop listed spare => exact .obj (List.forall_mem_cons.1 all).2

theorem Amends.unrepeated (amends : Amends slots entries entries')
    (single : Wire.unrepeated (slots.map Slot.name) entries = true) :
    Wire.unrepeated (slots.map Slot.name) entries' = true := by
  rw [unrepeated_iff] at single ⊢
  intro name listed
  have before := single name listed
  cases amends with
  | @add _ key value unnamed wellFormed =>
      have apart : key ≠ name := fun same => unnamed (same ▸ listed)
      rwa [countP_cons_of_ne value apart]
  | reorder same => rwa [← same.countP_eq]
  | drop own spare => exact (List.sublist_cons_self _ _).countP_le.trans before

theorem Amends.agrees (amends : Amends slots entries entries')
    (names : (slots.map Slot.name).Nodup)
    (single : Wire.unrepeated (slots.map Slot.name) entries = true) :
    Agrees slots entries entries' := by
  intro slot own
  have once := unrepeated_iff.1 single slot.name (List.mem_map_of_mem own)
  cases amends with
  | @add _ key value unnamed wellFormed =>
      have apart : slot.name ≠ key := fun same => unnamed (List.mem_map.2 ⟨slot, own, same⟩)
      exact Or.inl (lookup_cons_of_ne value apart)
  | reorder same => exact Or.inl (lookup_of_perm once same)
  | @drop _ dropped value listed spare =>
      by_cases same : slot.name = dropped.name
      · obtain rfl := List.inj_on_of_nodup_map names own listed same
        exact Or.inr ⟨lookup_eq_none_of_fresh (fresh_of_single once), value, List.lookup_cons_self,
          spare⟩
      · exact Or.inl (lookup_cons_of_ne value same).symm

/-- Whatever is changed in one object of a text, the text is read as before. The object may be the
whole text or stand inside it. -/
def Tolerant (inside : List (String × Json) → Json) (slots : List Slot) (read : Json → Option α) :
    Prop :=
  ∀ (text : String) (entries amended : List (String × Json)) (value : α),
    Json.parse? text = some (inside entries) → read (inside entries) = some value →
    Relation.ReflTransGen (Amends slots) entries amended →
      read (inside amended) = some value ∧
        (Json.parse? (inside amended).render).bind read = some value

structure ByField (slots : List Slot) (read : List (String × Json) → Option α) : Prop where
  single : ∀ {entries value}, read entries = some value →
    unrepeated (slots.map Slot.name) entries = true
  same : ∀ {entries entries'}, unrepeated (slots.map Slot.name) entries = true →
    unrepeated (slots.map Slot.name) entries' = true → Agrees slots entries entries' →
      read entries' = read entries

theorem ByField.tolerant {inside : List (String × Json) → Json} {read : Json → Option α}
    (byField : ByField slots fun entries => read (inside entries))
    (names : (slots.map Slot.name).Nodup)
    (part : ∀ {entries}, (inside entries).WellFormed → (Json.obj entries).WellFormed)
    (whole : ∀ {entries entries'}, (inside entries).WellFormed → (Json.obj entries').WellFormed →
      (inside entries').WellFormed) : Tolerant inside slots read := by
  intro text entries amended value spelled held changes
  have kept : (inside amended).WellFormed ∧ read (inside amended) = some value := by
    induction changes with
    | refl => exact ⟨Json.parse?_eq_some_iff.1 ⟨text, spelled⟩, held⟩
    | tail _ change ih =>
        obtain ⟨wellFormed, held⟩ := ih
        have single := byField.single held
        refine ⟨whole wellFormed (change.wellFormed (part wellFormed)), ?_⟩
        rw [← held]
        exact byField.same single (change.unrepeated single) (change.agrees names single)
  rw [Json.parse?_render kept.1]
  exact ⟨kept.2, kept.2⟩

section Objects
variable {read : Json → Option α} {decode : Record → Option α}

theorem byField_object
    (reads : ∀ value, read value = (record? (slots.map Slot.name) value).bind decode)
    (same : ∀ {entries entries'}, Agrees slots entries entries' →
      decode ⟨entries', false⟩ = decode ⟨entries, false⟩) :
    ByField slots fun entries => read (.obj entries) where
  single := by
    intro entries value held
    rw [reads] at held
    obtain ⟨record, opened, -⟩ := Option.bind_eq_some_iff.1 held
    exact (Option.ite_none_right_eq_some.1 opened).1
  same := by
    intro entries entries' single single' agrees
    rw [reads, reads, record?, record?, if_pos single, if_pos single']
    exact same agrees

theorem tolerant_object (names : (slots.map Slot.name).Nodup)
    (byField : ByField slots fun entries => read (.obj entries)) : Tolerant .obj slots read :=
  byField.tolerant names id fun _ wellFormed => wellFormed

end Objects

section Inside
variable {before after : List (String × Json)} {key : String} {value value' : Json}

theorem wellFormed_held (whole : (Json.obj (before ++ (key, value) :: after)).WellFormed) :
    value.WellFormed :=
  Json.wellFormed_obj_iff.1 whole (key, value) (List.mem_append_right _ List.mem_cons_self)

theorem wellFormed_replace (whole : (Json.obj (before ++ (key, value) :: after)).WellFormed)
    (part : value'.WellFormed) : (Json.obj (before ++ (key, value') :: after)).WellFormed := by
  have all := Json.wellFormed_obj_iff.1 whole
  simp only [List.forall_mem_append, List.forall_mem_cons] at all
  apply Json.WellFormed.obj
  simp only [List.forall_mem_append, List.forall_mem_cons]
  exact ⟨all.1, part, all.2.2⟩

theorem unrepeated_replace (names : List String) (value value' : Json) :
    unrepeated names (before ++ (key, value') :: after) =
      unrepeated names (before ++ (key, value) :: after) := by
  simp only [unrepeated, List.countP_append, List.countP_cons]

theorem withDefault_held {names : List String} (listed : key ∈ names)
    (single : unrepeated names (before ++ (key, value) :: after) = true) (decode : Json → Option α)
    (default : α) :
    Record.withDefault ⟨before ++ (key, value) :: after, false⟩ decode key default = decode value := by
  have held : (before ++ (key, value) :: after).lookup key = some value := by
    rw [lookup_eq_some_iff_mem (unrepeated_iff.1 single key listed)]
    exact List.mem_append_right _ List.mem_cons_self
  rw [Record.withDefault, held]

theorem withDefault_replace (value value' : Json) {decode : Json → Option α} {default : α}
    (same : name = key → decode value' = decode value) :
    Record.withDefault ⟨before ++ (key, value') :: after, false⟩ decode name default =
      Record.withDefault ⟨before ++ (key, value) :: after, false⟩ decode name default := by
  simp only [Record.withDefault, List.lookup_append]
  cases before.lookup name with
  | some earlier => rfl
  | none =>
      by_cases own : name = key
      · cases own
        simpa using same rfl
      · rw [lookup_cons_of_ne value own, lookup_cons_of_ne value' own]

theorem ByField.inside {β : Type} {part : Json → Option β} {read : Json → Option α}
    (byField : ByField slots fun entries => part (.obj entries))
    (held : ∀ {value answer}, read (.obj (before ++ (key, value) :: after)) = some answer →
      ∃ own, part value = some own)
    (replaced : ∀ {value value'}, part value' = part value →
      read (.obj (before ++ (key, value') :: after)) = read (.obj (before ++ (key, value) :: after))) :
    ByField slots fun entries => read (.obj (before ++ (key, .obj entries) :: after)) where
  single answered := by
    obtain ⟨own, read⟩ := held answered
    exact byField.single read
  same single single' agrees := replaced (byField.same single single' agrees)

theorem tolerant_inside {read : Json → Option α} (names : (slots.map Slot.name).Nodup)
    (byField : ByField slots fun entries => read (.obj (before ++ (key, .obj entries) :: after))) :
    Tolerant (fun entries => .obj (before ++ (key, .obj entries) :: after)) slots read :=
  byField.tolerant names wellFormed_held wellFormed_replace

end Inside

end DeclGraph.Wire
