import Mathlib.Data.List.Forall2
import NetLab.Document
import NetLab.Proofs.Json.Members

/-!
# Written forms

One value can be written in many ways.  A record may leave out fields that hold their default, and
it may have fields that nobody knows; all this can differ at every depth.  `IsRecord` says what a
record has to have, field by field (`Field`), and nothing of any other field; `IsList`, `IsMap` and
`IsNullOr` carry the forms of values to lists, maps and optional values.

The readers of `NetLab.Document` find the value in every form of it (`Reads`), and so in each field
of a record (`field?_eq`, `orDefault?_eq`, `optional?_eq`).  What is written as JSON with all its
fields is a form (`isRecord_ofMembers`), and stays one when unknown fields are added
(`IsRecord.insert`) and fields that may be left out are removed (`IsRecord.erase`).
-/

namespace NetLab.Document

section Forms

variable {δ α : Type} [Document δ]

/-- The document is a text. -/
def IsText (text : String) (d : δ) : Prop := text? d = some text

/-- The document is a list of forms of the values, in order. -/
def IsList (form : α → δ → Prop) (values : List α) (d : δ) : Prop :=
  ∃ items, items? d = some items ∧ List.Forall₂ form values items

/-- The document has an entry of the same name for each entry of the map, with a form of its value,
and no others. -/
def IsMap (form : α → δ → Prop) (m : SortedMap String α) (d : δ) : Prop :=
  ∃ entries, entries? d = some entries ∧
    List.Forall₂ (fun entry written => written.1 = entry.1 ∧ form entry.2 written.2)
      m.entries entries

/-- The document is a map of texts. -/
def IsTexts : StringMap → δ → Prop := IsMap IsText

/-- The document is `null` where there is no value. -/
def IsNullOr (form : α → δ → Prop) : Option α → δ → Prop
  | none, d => isNull d = true
  | some value, d => isNull d = false ∧ form value d

/-- What a record has to have in one field. -/
structure Field (δ : Type) where
  name : String
  /-- What can stand in the field. -/
  IsForm : δ → Prop
  /-- When the field can be left out. -/
  Omissible : Prop

namespace Field

/-- A field that has to be there. -/
def required (name : String) (form : α → δ → Prop) (value : α) : Field δ :=
  ⟨name, form value, False⟩

/-- A field that can be left out when it holds its default. -/
def defaulted (name : String) (form : α → δ → Prop) (value default : α) : Field δ :=
  ⟨name, form value, value = default⟩

/-- A field that can be left out, or be `null`, when it holds nothing. -/
def optional (name : String) (form : α → δ → Prop) (value : Option α) : Field δ :=
  defaulted name (IsNullOr form) value none

/-- The field is among the entries once, or it is not and can be left out. -/
def Among (field : Field δ) (entries : List (String × δ)) : Prop :=
  (∃ d, named field.name entries = [d] ∧ field.IsForm d) ∨
    named field.name entries = [] ∧ field.Omissible

end Field

/-- The document is a record with these fields, and maybe others. -/
def IsRecord (fields : List (Field δ)) (d : δ) : Prop :=
  ∃ entries, entries? d = some entries ∧ ∀ field ∈ fields, field.Among entries

end Forms

/-! ## Reading -/

/-- The reader finds the value in every form of it. -/
def Reads {δ α : Type} (form : α → δ → Prop) (read : δ → Option α) : Prop :=
  ∀ value d, form value d → read d = some value

namespace Reads

variable {δ α : Type} {form : α → δ → Prop} {read : δ → Option α}

theorem mapM (hread : Reads form read) : Reads (List.Forall₂ form) (List.mapM read) := by
  intro values items h
  induction h with
  | nil => rfl
  | cons hform _ ih => simp [List.mapM_cons, hread _ _ hform, ih]

variable [Document δ]

theorem text : Reads (@IsText δ _) text? := fun _ _ h => h

theorem list (hread : Reads form read) : Reads (IsList form) (list? read) := by
  rintro values d ⟨items, hitems, hforms⟩
  rw [list?, hitems]
  exact hread.mapM values items hforms

theorem map (hread : Reads form read) : Reads (IsMap form) (map? read) := by
  rintro m d ⟨entries, hentries, hforms⟩
  have hentry : Reads (fun entry written => written.1 = entry.1 ∧ form entry.2 written.2)
      fun written : String × δ => (read written.2).map (Prod.mk written.1) := by
    rintro ⟨name, value⟩ ⟨_, d⟩ ⟨rfl, hform⟩
    exact congrArg (Option.map _) (hread value d hform)
  simp [map?, hentries, hentry.mapM _ _ hforms, SortedMap.ofList_entries]

theorem texts : Reads (@IsTexts δ _) texts? := text.map

theorem nullOr (hread : Reads form read) : Reads (IsNullOr form) (nullable read) := by
  intro value? d h
  cases value? with
  | none => exact if_pos h
  | some value =>
    rw [nullable, h.1, hread value d h.2]
    rfl

end Reads

/-! ### Fields -/

section Fields

variable {δ α : Type} {form : α → δ → Prop} {read : δ → Option α} {entries : List (String × δ)}
  {name : String} {value : α}

theorem field?_eq (h : (Field.required name form value).Among entries)
    (hread : ∀ d, form value d → read d = some value) :
    field? entries name read = some value := by
  rcases h with ⟨d, hnamed, hform⟩ | ⟨-, homissible⟩
  · have hnamed : named name entries = [d] := hnamed
    rw [field?, hnamed]
    exact hread d hform
  · exact homissible.elim

theorem orDefault?_eq {default : α} (h : (Field.defaulted name form value default).Among entries)
    (hread : ∀ d, form value d → read d = some value) :
    orDefault? entries name read default = some value := by
  rcases h with ⟨d, hnamed, hform⟩ | ⟨hnamed, homissible⟩
  · have hnamed : named name entries = [d] := hnamed
    rw [orDefault?, hnamed]
    exact hread d hform
  · have hnamed : named name entries = [] := hnamed
    rw [orDefault?, hnamed]
    exact congrArg some homissible.symm

theorem optional?_eq [Document δ] {value? : Option α}
    (h : (Field.optional name form value?).Among entries) (hread : Reads form read) :
    optional? entries name read = some value? :=
  orDefault?_eq h (hread.nullOr value?)

end Fields

/-! ## Writing -/

theorem isList_array {α : Type} {form : α → Json → Prop} {write : α → Json}
    (hwrite : ∀ value, form value (write value)) (values : List α) :
    IsList form values (.array (values.map write)) :=
  ⟨_, rfl, List.forall₂_map_right_iff.2 (List.forall₂_same.2 fun value _ => hwrite value)⟩

theorem isMap_ofMap {α : Type} {form : α → Json → Prop} {write : α → Json}
    (hwrite : ∀ value, form value (write value)) (m : SortedMap String α) :
    IsMap form m (.ofMap m write) :=
  ⟨_, rfl, List.forall₂_map_right_iff.2 (List.forall₂_same.2 fun entry _ => ⟨rfl, hwrite entry.2⟩)⟩

theorem isText_string (text : String) : IsText text (Json.string text) := rfl

theorem isTexts_ofStringMap (texts : StringMap) : IsTexts texts (Json.ofStringMap texts) :=
  isMap_ofMap isText_string texts

theorem isNullOr_getD {α : Type} {form : α → Json → Prop} {write : α → Json}
    (hwrite : ∀ value, form value (write value)) (hnull : ∀ value, write value ≠ .null)
    (value? : Option α) : IsNullOr form value? ((value?.map write).getD .null) := by
  cases value? with
  | none => rfl
  | some value => exact ⟨beq_eq_false_iff_ne.2 (hnull value), hwrite value⟩

theorem isNullOr_text? (text? : Option String) : IsNullOr IsText text? (Json.text? text?) :=
  isNullOr_getD isText_string (by simp) text?

/-! ### Records -/

section Named

variable {δ : Type}

theorem named_cons (name : String) (entry : String × δ) (rest : List (String × δ)) :
    named name (entry :: rest) =
      if entry.1 = name then entry.2 :: named name rest else named name rest := by
  by_cases h : entry.1 = name <;> simp [named, h]

/-- In the order of names, no name is there twice. -/
theorem named_of_ascending {entries : List (String × δ)} (h : Assoc.Ascending entries)
    (name : String) : named name entries = (Assoc.find? name entries).toList := by
  induction entries with
  | nil => rfl
  | cons entry rest ih =>
    obtain ⟨hentry, hrest⟩ := List.pairwise_cons.1 h
    -- All names behind the first one come after it, so it is not among them again.
    rw [named_cons, ih hrest, Assoc.find?]
    simp only [Std.LawfulEqCmp.compare_eq_iff_eq, eq_comm (a := name)]
    split
    · rename_i heq
      rw [← heq, Assoc.find?_eq_none_of_lt hentry]
      rfl
    · rfl

theorem named_insert {name other : String} (h : other ≠ name) (value : δ)
    (entries : List (String × δ)) :
    named other (Assoc.insert name value entries) = named other entries := by
  induction entries with
  | nil => simp [Assoc.insert, named, h.symm]
  | cons entry rest ih =>
    obtain ⟨k, v⟩ := entry
    simp only [Assoc.insert]
    split
    · rw [named_cons, if_neg h.symm]
    · rename_i heq
      obtain rfl := Std.LawfulEqCmp.eq_of_compare heq
      rw [named_cons, named_cons, if_neg h.symm, if_neg h.symm]
    · rw [named_cons, named_cons, ih]

theorem named_erase (name other : String) (entries : List (String × δ)) :
    named other (Assoc.erase name entries) = if other = name then [] else named other entries := by
  induction entries with
  | nil => simp [Assoc.erase, named]
  | cons entry rest ih =>
    by_cases heq : entry.1 = name
    · have herase : Assoc.erase name (entry :: rest) = Assoc.erase name rest := by
        simp [Assoc.erase, heq]
      rw [herase, ih, named_cons, heq]
      by_cases hother : other = name
      · rw [if_pos hother, if_pos hother]
      · rw [if_neg hother, if_neg hother, if_neg (Ne.symm hother)]
    · have herase : Assoc.erase name (entry :: rest) = entry :: Assoc.erase name rest := by
        simp [Assoc.erase, Ne.symm heq, Std.LawfulEqCmp.compare_eq_iff_eq]
      rw [herase, named_cons, ih, named_cons]
      by_cases hother : other = name
      · rw [if_pos hother, if_pos hother, if_neg (hother ▸ heq)]
      · rw [if_neg hother, if_neg hother]

end Named

/-- **A record that is written with all its fields.** -/
theorem isRecord_ofMembers {fields : List (Field Json)} {members : List (String × Json)}
    (hnodup : (members.map Prod.fst).Nodup)
    (h : List.Forall₂ (fun field member => member.1 = field.name ∧ field.IsForm member.2)
      fields members) : IsRecord fields (.ofMembers members) := by
  have hmembers : ∀ field ∈ fields,
      ∃ value, (field.name, value) ∈ members ∧ field.IsForm value := by
    -- The members are taken from the front, so what holds of all their names must not be kept.
    clear hnodup
    induction h with
    | nil => exact fun _ hmem => (List.not_mem_nil hmem).elim
    | cons hform _ ih =>
      refine List.forall_mem_cons.2 ⟨⟨_, List.mem_cons.2 (.inl ?_), hform.2⟩, fun field hmem => ?_⟩
      · rw [← hform.1]
      · obtain ⟨value, hvalue, hform⟩ := ih field hmem
        exact ⟨value, List.mem_cons_of_mem _ hvalue, hform⟩
  refine ⟨Assoc.ofList members, rfl, fun field hfield => ?_⟩
  obtain ⟨value, hmem, hform⟩ := hmembers field hfield
  have hfind : Assoc.find? field.name (Assoc.ofList members) = some value :=
    SortedMap.get?_ofList_of_mem hnodup hmem
  refine .inl ⟨value, ?_, hform⟩
  rw [named_of_ascending (Assoc.ascending_ofList members), hfind]
  rfl

/-! ### Changes -/

section Changes

variable {fields : List (Field Json)} {members : List (String × Json)} {name : String}

/-- **A field that the record does not know** can be added. -/
theorem IsRecord.insert (h : IsRecord fields (.object members))
    (hunknown : ∀ field ∈ fields, field.name ≠ name) (value : Json) :
    IsRecord fields (.object (Assoc.insert name value members)) := by
  obtain ⟨entries, hentries, hfields⟩ := h
  obtain rfl : members = entries := Option.some.inj hentries
  refine ⟨_, rfl, fun field hfield => ?_⟩
  rw [Field.Among, named_insert (hunknown field hfield)]
  exact hfields field hfield

/-- **A field that can be left out** can be removed. -/
theorem IsRecord.erase (h : IsRecord fields (.object members))
    (homissible : ∀ field ∈ fields, field.name = name → field.Omissible) :
    IsRecord fields (.object (Assoc.erase name members)) := by
  obtain ⟨entries, hentries, hfields⟩ := h
  obtain rfl : members = entries := Option.some.inj hentries
  refine ⟨_, rfl, fun field hfield => ?_⟩
  rw [Field.Among, named_erase]
  split
  · rename_i heq
    exact .inr ⟨rfl, homissible field hfield heq⟩
  · exact hfields field hfield

end Changes

end NetLab.Document
