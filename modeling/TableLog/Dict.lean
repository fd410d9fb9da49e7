namespace TableLog

/-- A finite map with its entries in order of their keys, so maps with
the same look-ups are equal. -/
structure Dict (β : Type) where
  entries : List (String × β)
  sorted : entries.Pairwise (fun a b ↦ a.1 < b.1)
  deriving DecidableEq, Repr

namespace Dict

variable {β : Type}

def empty : Dict β := ⟨[], .nil⟩

instance : EmptyCollection (Dict β) := ⟨empty⟩

instance : Inhabited (Dict β) := ⟨empty⟩

/-- Puts an entry at its place, over the entry that has its key. -/
def place (k : String) (v : β) : List (String × β) → List (String × β)
  | [] => [(k, v)]
  | e :: r =>
    if k < e.1 then (k, v) :: e :: r else if e.1 < k then e :: place k v r else (k, v) :: r

theorem eq_of_not_lt {a b : String} (h : ¬a < b) (h' : ¬b < a) : a = b :=
  String.le_antisymm (String.not_lt.1 h') (String.not_lt.1 h)

theorem mem_place {k : String} {v : β} {x : String × β} {l : List (String × β)}
    (h : x ∈ place k v l) :
    x = (k, v) ∨ x ∈ l := by
  induction l with
  | nil => simpa [place] using h
  | cons e r ih =>
    simp only [place] at h
    split at h
    · simpa using h
    · split at h
      · rcases List.mem_cons.1 h with rfl | h
        · simp
        · rcases ih h with h | h <;> simp [h]
      · rcases List.mem_cons.1 h with h | h <;> simp [h]

theorem place_sorted (k : String) (v : β) {l : List (String × β)}
    (h : l.Pairwise (fun a b ↦ a.1 < b.1)) : (place k v l).Pairwise (fun a b ↦ a.1 < b.1) := by
  induction l with
  | nil => simp [place]
  | cons e r ih =>
    obtain ⟨he, hr⟩ := List.pairwise_cons.1 h
    simp only [place]
    split
    · rename_i hk
      refine List.pairwise_cons.2 ⟨fun x hx ↦ ?_, h⟩
      rcases List.mem_cons.1 hx with rfl | hx
      · exact hk
      · exact String.lt_trans hk (he x hx)
    · split
      · rename_i hk
        refine List.pairwise_cons.2 ⟨fun x hx ↦ ?_, ih hr⟩
        rcases mem_place hx with rfl | hx
        · exact hk
        · exact he x hx
      · rename_i h₁ h₂
        rw [eq_of_not_lt h₂ h₁] at he
        exact List.pairwise_cons.2 ⟨he, hr⟩

def insert (d : Dict β) (k : String) (v : β) : Dict β :=
  ⟨place k v d.entries, place_sorted k v d.sorted⟩

def erase (d : Dict β) (k : String) : Dict β :=
  ⟨d.entries.filter (fun e ↦ e.1 ≠ k), d.sorted.filter _⟩

def get? (d : Dict β) (k : String) : Option β := d.entries.lookup k

/-- Later entries win. -/
def ofList (l : List (String × β)) : Dict β := l.foldl (fun d e ↦ d.insert e.1 e.2) empty

@[simp] theorem get?_empty (k : String) : (empty : Dict β).get? k = none := rfl

theorem lookup_cons (e : String × β) (r : List (String × β)) (q : String) :
    (e :: r).lookup q = if q = e.1 then some e.2 else r.lookup q := by
  obtain ⟨k, v⟩ := e
  by_cases h : q = k
  · simp [h]
  · have hb : (q == k) = false := by simpa using h
    simp [List.lookup_cons, hb, h]

theorem lookup_place (k : String) (v : β) (q : String) {l : List (String × β)}
    (h : l.Pairwise (fun a b ↦ a.1 < b.1)) :
    (place k v l).lookup q = if q = k then some v else l.lookup q := by
  induction l with
  | nil => simp [place, lookup_cons]
  | cons e r ih =>
    obtain ⟨he, hr⟩ := List.pairwise_cons.1 h
    simp only [place]
    split
    · simp [lookup_cons]
    · split
      · rename_i hk
        rw [lookup_cons, ih hr, lookup_cons]
        by_cases hq : q = e.1
        · have : e.1 ≠ k := fun hc ↦ String.lt_irrefl k (by rwa [hc] at hk)
          simp [hq, this]
        · simp [hq]
      · rename_i h₁ h₂
        rw [lookup_cons, lookup_cons, ← eq_of_not_lt h₂ h₁]
        split <;> rfl

theorem get?_insert (d : Dict β) (k : String) (v : β) (q : String) :
    (d.insert k v).get? q = if q = k then some v else d.get? q :=
  lookup_place k v q d.sorted

theorem lookup_filter (k q : String) (l : List (String × β)) :
    (l.filter (fun e ↦ e.1 ≠ k)).lookup q = if q = k then none else l.lookup q := by
  induction l with
  | nil => simp
  | cons e r ih =>
    by_cases he : e.1 = k
    · rw [List.filter_cons_of_neg (by simpa using he), ih, lookup_cons, he]
      split <;> rfl
    · rw [List.filter_cons_of_pos (by simpa using he), lookup_cons, ih, lookup_cons]
      by_cases hq : q = e.1
      · simp [hq, he]
      · simp [hq]

theorem get?_erase (d : Dict β) (k q : String) :
    (d.erase k).get? q = if q = k then none else d.get? q :=
  lookup_filter k q d.entries

theorem lookup_mem {k : String} {v : β} {l : List (String × β)} (h : l.lookup k = some v) :
    (k, v) ∈ l := by
  induction l with
  | nil => simp at h
  | cons e r ih =>
    rw [lookup_cons] at h
    split at h
    · rename_i hk
      rw [hk, ← Option.some.inj h]
      exact List.mem_cons_self
    · exact List.mem_cons_of_mem _ (ih h)

theorem get?_eq_some_iff (d : Dict β) (k : String) (v : β) :
    d.get? k = some v ↔ (k, v) ∈ d.entries := by
  obtain ⟨l, hl⟩ := d
  refine ⟨lookup_mem, fun h ↦ ?_⟩
  simp only [get?] at h ⊢
  induction l with
  | nil => simp at h
  | cons e r ih =>
    obtain ⟨he, hr⟩ := List.pairwise_cons.1 hl
    rw [lookup_cons]
    rcases List.mem_cons.1 h with rfl | h
    · simp
    · rw [if_neg fun hc ↦ String.lt_irrefl k (by simpa [← hc] using he _ h)]
      exact ih hr h

theorem eq_of_mem_iff {l m : List (String × β)} (hl : l.Pairwise (fun a b ↦ a.1 < b.1))
    (hm : m.Pairwise (fun a b ↦ a.1 < b.1)) (h : ∀ x, x ∈ l ↔ x ∈ m) : l = m := by
  induction l generalizing m with
  | nil =>
    cases m with
    | nil => rfl
    | cons y s => simpa using (h y).2 (by simp)
  | cons x r ih =>
    cases m with
    | nil => simpa using (h x).1 (by simp)
    | cons y s =>
      obtain ⟨hx, hr⟩ := List.pairwise_cons.1 hl
      obtain ⟨hy, hs⟩ := List.pairwise_cons.1 hm
      have hxy : x = y := by
        rcases List.mem_cons.1 ((h x).1 (by simp)) with hxy | hxs
        · exact hxy
        · rcases List.mem_cons.1 ((h y).2 (by simp)) with hyx | hyr
          · exact hyx.symm
          · exact absurd (String.lt_trans (hx y hyr) (hy x hxs)) (String.lt_irrefl _)
      subst hxy
      congr 1
      refine ih hr hs fun z ↦ ⟨fun hz ↦ ?_, fun hz ↦ ?_⟩
      · rcases List.mem_cons.1 ((h z).1 (by simp [hz])) with rfl | hz'
        · exact absurd (hx _ hz) (String.lt_irrefl _)
        · exact hz'
      · rcases List.mem_cons.1 ((h z).2 (by simp [hz])) with rfl | hz'
        · exact absurd (hy _ hz) (String.lt_irrefl _)
        · exact hz'

theorem ext_get? {d e : Dict β} (h : ∀ k, d.get? k = e.get? k) : d = e := by
  have hm : d.entries = e.entries := by
    refine eq_of_mem_iff d.sorted e.sorted fun x ↦ ?_
    rw [← get?_eq_some_iff d x.1 x.2, ← get?_eq_some_iff e x.1 x.2, h]
  cases d
  cases e
  simpa using hm

end Dict

end TableLog
