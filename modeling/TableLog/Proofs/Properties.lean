import TableLog.Metadata
import TableLog.Proofs.Json.Fields
import TableLog.Proofs.Json.Order

namespace TableLog

theorem Dict.keys_nodup {β : Type} (d : Dict β) : (d.entries.map (·.1)).Nodup := by
  apply List.pairwise_map.2
  apply d.sorted.imp
  intro a b hlt heq
  rw [heq] at hlt
  exact String.lt_irrefl _ hlt

namespace Properties

def switches : List String :=
  ["delta.appendOnly", "delta.enableChangeDataFeed", "delta.enableRowTracking",
    "delta.rowTrackingSuspended"]

def columns : List String :=
  ["delta.rowTracking.materializedRowIdColumnName",
    "delta.rowTracking.materializedRowCommitVersionColumnName"]

def Understood (key value : String) : Prop :=
  key ∈ columns ∨ key ∈ switches ∧ (value = "true" ∨ value = "false")

instance (key value : String) : Decidable (Understood key value) :=
  inferInstanceAs (Decidable (_ ∨ _))

def switchText (b : Bool) : String := if b then "true" else "false"

/-- What the properties of their own say about a key. -/
def held? (p : Properties) (key : String) : Option String :=
  if key = "delta.appendOnly" then p.appendOnly.map switchText
  else if key = "delta.enableChangeDataFeed" then p.changeDataFeed.map switchText
  else if key = "delta.enableRowTracking" then p.rowTracking.map switchText
  else if key = "delta.rowTrackingSuspended" then p.rowTrackingSuspended.map switchText
  else if key = "delta.rowTracking.materializedRowIdColumnName" then p.rowIdColumn
  else if key = "delta.rowTracking.materializedRowCommitVersionColumnName" then
    p.rowCommitVersionColumn
  else none

def putBack (p : Properties) (d : Dict String) (key : String) : Dict String :=
  (p.held? key).elim d (d.insert key)

def configuration (p : Properties) : Dict String := (switches ++ columns).foldl p.putBack p.unknown

variable {p q : Properties} {d : Dict String} {key value : String}

theorem switchText_injective : Function.Injective switchText := by
  intro b c h
  revert b c
  decide

theorem switch?_eq_none_iff : switch? value = none ↔ value ≠ "true" ∧ value ≠ "false" := by
  unfold switch?
  split_ifs <;> simp_all

theorem understood_iff : Understood key value ↔
    (key = "delta.rowTracking.materializedRowIdColumnName" ∨
      key = "delta.rowTracking.materializedRowCommitVersionColumnName") ∨
    (key = "delta.appendOnly" ∨ key = "delta.enableChangeDataFeed" ∨
      key = "delta.enableRowTracking" ∨ key = "delta.rowTrackingSuspended") ∧
    (value = "true" ∨ value = "false") := by
  simp only [Understood, columns, switches, List.mem_cons, List.not_mem_nil, or_false]

theorem not_understood_iff : ¬Understood key value ↔
    key ∉ switches ++ columns ∨ key ∈ switches ∧ value ≠ "true" ∧ value ≠ "false" := by
  have hdisjoint : ∀ k ∈ switches, k ∉ columns := by decide
  have hkey := hdisjoint key
  simp only [Understood, List.mem_append]
  tauto

theorem set_of_not_understood (h : ¬Understood key value) : p.set key value = p.keep key value := by
  rw [understood_iff] at h
  push Not at h
  unfold set
  split_ifs with h₁ h₂ h₃ h₄ h₅ h₆
  · rw [switch?_eq_none_iff.2 (h.2 (.inl h₁))]
  · rw [switch?_eq_none_iff.2 (h.2 (.inr (.inl h₂)))]
  · rw [switch?_eq_none_iff.2 (h.2 (.inr (.inr (.inl h₃))))]
  · rw [switch?_eq_none_iff.2 (h.2 (.inr (.inr (.inr h₄))))]
  · exact absurd h₅ h.1.1
  · exact absurd h₆ h.1.2
  · rfl

theorem unknown_set (p : Properties) (key value k : String) : (p.set key value).unknown.get? k =
    if k = key ∧ ¬Understood key value then some value else p.unknown.get? k := by
  by_cases hu : Understood key value
  · have hsame : (p.set key value).unknown = p.unknown := by
      rw [understood_iff] at hu
      obtain (rfl | rfl) | ⟨rfl | rfl | rfl | rfl, rfl | rfl⟩ := hu <;> simp [set, switch?]
    simp [hsame, hu]
  · rw [set_of_not_understood hu, keep, Dict.get?_insert]
    simp [hu]

theorem held?_set (p : Properties) (key value k : String) :
    (p.set key value).held? k = if k = key ∧
    Understood key value then some value else p.held? k := by
  by_cases hu : Understood key value
  · simp only [hu, and_true]
    rw [understood_iff] at hu
    split_ifs with hk
    · subst hk
      obtain (rfl | rfl) | ⟨rfl | rfl | rfl | rfl, rfl | rfl⟩ :=
        hu <;> simp [set, switch?, held?, switchText]
    · obtain (rfl | rfl) | ⟨rfl | rfl | rfl | rfl, rfl | rfl⟩ :=
        hu <;> simp [set, switch?, held?, hk]
  · have hkeep : (p.keep key value).held? k = p.held? k := rfl
    simp [set_of_not_understood hu, hkeep, hu]

theorem ext_held? (hheld : ∀ k, p.held? k = q.held? k)
    (hunknown : p.unknown = q.unknown) : p = q := by
  have hswitch := Option.map_injective switchText_injective
  have happend : p.appendOnly = q.appendOnly := hswitch (hheld "delta.appendOnly")
  have hfeed : p.changeDataFeed = q.changeDataFeed := hswitch (hheld "delta.enableChangeDataFeed")
  have htracking : p.rowTracking = q.rowTracking := hswitch (hheld "delta.enableRowTracking")
  have hsuspended : p.rowTrackingSuspended = q.rowTrackingSuspended :=
    hswitch (hheld "delta.rowTrackingSuspended")
  have hid : p.rowIdColumn = q.rowIdColumn := hheld "delta.rowTracking.materializedRowIdColumnName"
  have hversion : p.rowCommitVersionColumn = q.rowCommitVersionColumn :=
    hheld "delta.rowTracking.materializedRowCommitVersionColumnName"
  cases p
  cases q
  simp_all

/-- The entries of a configuration, each in its place. -/
structure Divides (d : Dict String) (p : Properties) : Prop where
  held : ∀ k, p.held? k = (d.get? k).filter (Understood k ·)
  kept : ∀ k, p.unknown.get? k = (d.get? k).filter (¬Understood k ·)

theorem Divides.unique (h : Divides d p) (h' : Divides d q) : p = q := by
  refine ext_held? (fun k ↦ ?_) (Dict.ext_get? fun k ↦ ?_)
  · rw [h.held, h'.held]
  · rw [h.kept, h'.kept]

theorem divides_empty : Divides .empty {} where
  held k := by simp [held?]
  kept k := rfl

/-- The key must be new: a switch that is set twice, once to no switch
value, would end up in both places. -/
theorem Divides.step (h : Divides d p) (hnew : d.get? key = none) (value : String) :
    Divides (d.insert key value) (p.set key value) where
  held k := by
    rw [held?_set, Dict.get?_insert, h.held]
    by_cases hk : k = key
    · subst hk
      by_cases hu : Understood k value <;> simp [hnew, hu, Option.filter_some]
    · simp [hk]
  kept k := by
    rw [unknown_set, Dict.get?_insert, h.kept]
    by_cases hk : k = key
    · subst hk
      by_cases hu : Understood k value <;> simp [hnew, hu, Option.filter_some]
    · simp [hk]

theorem Divides.run {entries : List (String × String)} (h : Divides d p)
    (hd : (entries.map (·.1)).Nodup) (hnew : ∀ e ∈ entries, d.get? e.1 = none) :
    Divides (entries.foldl (fun d e ↦ d.insert e.1 e.2) d)
      (entries.foldl (fun p e ↦ p.set e.1 e.2) p) := by
  induction entries generalizing d p with
  | nil => exact h
  | cons e entries ih =>
    obtain ⟨he, hentries⟩ := List.nodup_cons.1 hd
    obtain ⟨hfirst, hrest⟩ := List.forall_mem_cons.1 hnew
    apply ih (h.step hfirst e.2) hentries
    intro f hf
    have hne : f.1 ≠ e.1 := fun hfe ↦ he (List.mem_map.2 ⟨f, hf, hfe⟩)
    rw [Dict.get?_insert, if_neg hne]
    exact hrest f hf

theorem divides_ofEntries {entries : List (String × String)} (hd : (entries.map (·.1)).Nodup) :
    Divides (.ofList entries) (ofEntries entries) :=
  divides_empty.run hd fun _ _ ↦ rfl

theorem divides_ofDict (d : Dict String) : Divides d (ofDict d) := by
  have hdivides := divides_ofEntries d.keys_nodup
  rwa [Dict.ofList_entries] at hdivides

theorem get?_putBack (p : Properties) (keys : List String) (d : Dict String) (k : String) :
    (keys.foldl p.putBack d).get? k = if k ∈ keys then (p.held? k).or (d.get? k) else d.get? k := by
  induction keys generalizing d with
  | nil => simp
  | cons key keys ih =>
    have hput : (p.putBack d key).get? k =
        if k = key then (p.held? k).or (d.get? k) else d.get? k := by
      unfold putBack
      split_ifs with hk
      · subst hk
        cases p.held? k <;> simp [Dict.get?_insert]
      · cases p.held? key <;> simp [Dict.get?_insert, hk]
    rw [List.foldl_cons, ih, hput]
    by_cases hk : k = key
    · subst hk
      cases p.held? k <;> simp
    · simp [hk]

theorem held?_eq_none (p : Properties) {k : String} (h : k ∉ switches ++ columns) :
    p.held? k = none := by
  simp only [switches, columns, List.mem_append, List.mem_cons, List.not_mem_nil, or_false] at h
  push Not at h
  simp [held?, h]

theorem get?_configuration (p : Properties) (k : String) :
    p.configuration.get? k = (p.held? k).or (p.unknown.get? k) := by
  rw [configuration, get?_putBack]
  split_ifs with hk
  · rfl
  · rw [held?_eq_none p hk, Option.none_or]

theorem Divides.configuration (h : Divides d p) : p.configuration = d := by
  apply Dict.ext_get?
  intro k
  rw [get?_configuration, h.held, h.kept]
  cases d.get? k with
  | none => rfl
  | some value => by_cases hu : Understood k value <;> simp [Option.filter_some, hu]

/-- Reading a configuration gives the same properties whatever the order of its entries.
What is kept as it is are just the entries that are not understood, the properties of
their own hold the others, and both together are the configuration, so two
configurations never give the same properties. -/
theorem every_entry_kept (d : Dict String) :
    (∀ entries : List (String × String), entries.Perm d.entries → ofEntries entries = ofDict d) ∧
    (∀ key value, (ofDict d).unknown.get? key = some value ↔ d.get? key = some value ∧
      (key ∉ switches ++ columns ∨ key ∈ switches ∧ value ≠ "true" ∧ value ≠ "false")) ∧
    (∀ key value, (ofDict d).held? key = some value ↔ d.get? key = some value ∧
      (key ∈ columns ∨ key ∈ switches ∧ (value = "true" ∨ value = "false"))) ∧
    (ofDict d).configuration = d ∧
    ∀ m m' : Metadata, m.properties = m'.properties → m.configuration = m'.configuration := by
  have hdivides := divides_ofDict d
  refine ⟨fun entries hperm ↦ ?_, fun key value ↦ ?_, fun key value ↦ ?_, hdivides.configuration,
    fun m m' h ↦ ?_⟩
  · have hkeys : (entries.map (·.1)).Nodup := ((hperm.map _).nodup_iff).2 d.keys_nodup
    have hentries := divides_ofEntries hkeys
    rw [Dict.ofList_perm hperm hkeys, Dict.ofList_entries] at hentries
    exact hentries.unique hdivides
  · rw [hdivides.kept, Option.filter_eq_some_iff, decide_eq_true_iff, not_understood_iff]
  · rw [hdivides.held, Option.filter_eq_some_iff, decide_eq_true_iff, Understood]
  · have hfirst : m.properties.configuration = m.configuration :=
      (divides_ofDict m.configuration).configuration
    have hsecond : m'.properties.configuration = m'.configuration :=
      (divides_ofDict m'.configuration).configuration
    rw [← hfirst, h, hsecond]

end Properties

/-- A switch with a value that is none, a switch, a column with the name of
a switch value, and a key of the user. -/
def Sample.settings : Dict String :=
  .ofList [("delta.enableRowTracking", "yes"), ("delta.appendOnly", "true"),
    ("delta.rowTracking.materializedRowIdColumnName", "false"), ("owner", "true")]

open TableLog.Sample (settings) in
theorem Properties.every_entry_kept_settings :
    ofEntries [("owner", "true"), ("delta.rowTracking.materializedRowIdColumnName", "false"),
      ("delta.enableRowTracking", "yes"), ("delta.appendOnly", "true")] = ofDict settings ∧
    (ofDict settings).appendOnly = some true ∧ (ofDict settings).rowTracking = none ∧
    (ofDict settings).rowIdColumn = some "false" ∧
    (ofDict settings).unknown.get? "delta.enableRowTracking" = some "yes" ∧
    (ofDict settings).held? "owner" = none ∧ (ofDict settings).configuration = settings ∧
    ∀ m : Metadata, m.properties = ofDict settings → m.configuration = settings := by
  obtain ⟨horder, hkept, hheld, hall, hsame⟩ := every_entry_kept settings
  refine ⟨horder _ (by decide +kernel), by decide +kernel, by decide +kernel, by decide +kernel, ?_,
    ?_, hall, ?_⟩
  · exact (hkept _ _).2 ⟨by decide +kernel,
      .inr ⟨by decide +kernel, by decide +kernel, by decide +kernel⟩⟩
  · rw [Option.eq_none_iff_forall_ne_some]
    intro value hvalue
    obtain ⟨-, hunderstood⟩ := (hheld "owner" value).1 hvalue
    have hunknown : "owner" ∉ columns ∧ "owner" ∉ switches := by decide +kernel
    exact hunderstood.elim hunknown.1 fun h ↦ hunknown.2 h.1
  · intro m hm
    have hmetadata :
      ({ id := "m", schemaString := "", configuration := settings } : Metadata).properties =
      ofDict settings := rfl
    exact hsame m _ (hm.trans hmetadata.symm)

end TableLog
