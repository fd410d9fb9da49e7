import TableLog.Proofs.Replay

namespace TableLog

open TableLog.Action (last? on?)

namespace Action

variable {α : Type} {as : List Action} {domain : String}

theorem last?_eq_none_iff {part? : Action → Option α} :
    last? part? as = none ↔ ∀ a ∈ as, part? a = none := by
  rw [last?, List.getLast?_eq_none_iff, List.filterMap_eq_nil_iff]

theorem lastLeft?_eq_none_iff :
    lastLeft? domain as = none ↔
      (∀ a ∈ as, a.on? domain = none) ∨ ∃ d, last? (on? domain) as = some d ∧ d.removed = true := by
  rw [lastLeft?, Option.bind_eq_none_iff, ← last?_eq_none_iff]
  cases last? (on? domain) as <;> simp [DomainMetadata.left?]

theorem exists_lastLeft?_iff {P : String → Prop} :
    (∃ text, lastLeft? domain as = some text ∧ P text) ↔
      ∃ d, last? (on? domain) as = some d ∧ d.removed = false ∧ P d.configuration := by
  rw [lastLeft?]
  cases last? (on? domain) as <;> simp [DomainMetadata.left?]

end Action

namespace DomainMetadata

theorem applyTo_comm {d e : DomainMetadata} (h : d.domain ≠ e.domain) (m : Dict String) :
    applyTo (applyTo m d) e = applyTo (applyTo m e) d := by
  apply Dict.ext_get?
  intro k
  simp only [get?_applyTo]
  by_cases hd : k = d.domain
  · subst hd
    rw [if_pos rfl, if_neg h, if_pos rfl]
  · rw [if_neg hd, if_neg hd]

end DomainMetadata

namespace Replay

variable {d : DomainMetadata}

theorem apply_setDomain {a : Action} (h : a.on? d.domain = none) (r : Replay) :
    (r.setDomain d).apply a = (r.apply a).setDomain d := by
  cases a with
  | domainMetadata e =>
    have hne : d.domain ≠ e.domain := by
      intro he
      simp [on?, Action.domain?, he] at h
    have hcomm := DomainMetadata.applyTo_comm hne r.domains
    exact congrArg (fun domains ↦ { r with domains }) hcomm
  | _ => rfl

theorem applyAll_setDomain {rs : List (Outcome Action)}
    (h : ∀ a, .ok a ∈ rs → a.on? d.domain = none) (r : Replay) :
    (r.setDomain d).applyAll rs = (r.applyAll rs).map (·.setDomain d) := by
  induction rs generalizing r with
  | nil => rfl
  | cons x rs ih =>
    cases x with
    | error e => rfl
    | ok a =>
      rw [applyAll, applyAll, apply_setDomain (h a List.mem_cons_self)]
      exact ih (fun b hb ↦ h b (List.mem_cons_of_mem _ hb)) (r.apply a)

end Replay

namespace Snapshot

def setDomain (s : Snapshot) (d : DomainMetadata) : Snapshot :=
  { s with domains := d.applyTo s.domains }

variable {α : Type} {root : Location} {v : Version} {d : DomainMetadata}

theorem finish_setDomain (r : Replay) :
    (r.setDomain d).finish root v = (r.finish root v).map (·.setDomain d) := by
  obtain ⟨protocol, metadata, domains⟩ := r
  cases protocol with
  | none => rfl
  | some p =>
    cases metadata with
    | none => rfl
    | some m =>
      simp only [Replay.finish, Replay.setDomain]
      cases Configuration.make m p root v <;> rfl

theorem replay_domainMetadata {rs : List (Outcome Action)}
    (h : ∀ a, .ok a ∈ rs → a.on? d.domain = none) (past : List (Outcome Action)) :
    replay root v (past ++ .ok (.domainMetadata d) :: rs) =
      (replay root v (past ++ rs)).map (·.setDomain d) := by
  rw [replay, replay, Replay.applyAll_append, Replay.applyAll_append]
  cases Replay.applyAll {} past with
  | error e => rfl
  | ok r =>
    have hlast : r.applyAll (.ok (.domainMetadata d) :: rs) = (r.applyAll rs).map (·.setDomain d) :=
      Replay.applyAll_setDomain h r
    change (r.applyAll (.ok (.domainMetadata d) :: rs) >>= fun r ↦ r.finish root v) =
      (r.applyAll rs >>= fun r ↦ r.finish root v).map (·.setDomain d)
    rw [hlast]
    cases r.applyAll rs with
    | error e => rfl
    | ok r => exact finish_setDomain r

/-- Whatever stands before the line in its file and in the log, and whatever is said of
other domains behind it: the line reads as its action, it changes nothing about the table
but the domain, and the snapshot reads so. -/
def Survives (d : DomainMetadata) (reads : Snapshot → Prop) : Prop :=
  Action.parse (Action.domainMetadata d).line = .ok (.domainMetadata d) ∧
    ∀ (root : Location) (v : Version) (past later : List (Outcome Action)) (head tail : Bytes)
    (as : List Action),
      readActions head = as.map .ok →
      (∀ a, .ok a ∈ readActions tail ++ later → a.on? d.domain = none) →
        let file := head ++ ((Action.domainMetadata d).line ++ 0x0A :: tail)
        replay root v (past ++ readActions file ++ later) =
            (replay root v (past ++ readActions (head ++ tail) ++ later)).map (·.setDomain d) ∧
          ∀ s, replay root v (past ++ readActions file ++ later) = .ok s → reads s

theorem Survives.of_setDomain {reads : Snapshot → Prop}
    (h : ∀ s : Snapshot, reads (s.setDomain d)) :
    Survives d reads := by
  have hline := (Action.domainMetadata d).spelledBy_line
  refine ⟨hline.parse trivial, fun root v past later head tail as hhead hother ↦ ?_⟩
  intro file
  have hfile : past ++ readActions file ++ later =
      past ++ as.map .ok ++ .ok (.domainMetadata d) :: (readActions tail ++ later) := by
    rw [readActions_append hhead, readActions_line hline]
    simp [Action.resolved]
  have hwithout : past ++ readActions (head ++ tail) ++ later =
      past ++ as.map .ok ++ (readActions tail ++ later) := by
    rw [readActions_append hhead]
    simp
  have hreplay :
      replay root v (past ++ as.map .ok ++ .ok (.domainMetadata d) :: (readActions tail ++ later)) =
      (replay root v (past ++ as.map .ok ++ (readActions tail ++ later))).map (·.setDomain d) :=
    replay_domainMetadata hother (past ++ as.map .ok)
  rw [hfile, hwithout]
  refine ⟨hreplay, fun s hs ↦ ?_⟩
  obtain ⟨s₀, -, rfl⟩ := Outcome.map_eq_ok_iff.1 (hreplay.symm.trans hs)
  exact h s₀

theorem decoded_setDomain {decode? : String → Option α} {a : α} (hd : d.removed = false)
    (ha : decode? d.configuration = some a) (s : Snapshot) :
    (s.setDomain d).decoded d.domain decode? = .ok (some a) := by
  rw [decoded_eq_reading, setDomain, DomainMetadata.get?_applyTo, if_pos rfl, hd]
  simp only [Bool.false_eq_true, if_false, reading, ha]

section

variable {decode? : String → Option α} {x : Option String}

theorem reading_eq_none_iff : reading decode? x = .ok none ↔ x = none := by
  cases x with
  | none => simp [reading]
  | some text => cases h : decode? text <;> simp [reading, h]

theorem reading_eq_error_iff {e : Error} :
    reading decode? x = .error e ↔
    e = .malformedJson ∧ ∃ text, x = some text ∧ decode? text = none := by
  cases x with
  | none => simp [reading]
  | some text => cases h : decode? text <;> simp [reading, h, eq_comm]

theorem reading_eq_some_iff {a : α} :
    reading decode? x = .ok (some a) ↔ ∃ text, x = some text ∧ decode? text = some a := by
  cases x with
  | none => simp [reading]
  | some text => cases h : decode? text <;> simp [reading, h]

end

/-- A typed reading goes by the last action on the domain. There is none to read
exactly if there is no such action or it is a tombstone, and a text that does
not decode is an error and nothing else. -/
structure ReadsLast (domain : String) (decode? : String → Option α) (as : List Action)
    (x : Outcome (Option α)) :
    Prop where
  absent : x = .ok none ↔
    (∀ a ∈ as, a.on? domain = none) ∨ ∃ d, last? (on? domain) as = some d ∧ d.removed = true
  malformed (e : Error) : x = .error e ↔ e = .malformedJson ∧
    ∃ d, last? (on? domain) as = some d ∧ d.removed = false ∧ decode? d.configuration = none
  present (a : α) : x = .ok (some a) ↔
    ∃ d, last? (on? domain) as = some d ∧ d.removed = false ∧ decode? d.configuration = some a

theorem readsLast_reading (domain : String) (decode? : String → Option α) (as : List Action) :
    ReadsLast domain decode? as (reading decode? (Action.lastLeft? domain as)) where
  absent := by rw [reading_eq_none_iff, Action.lastLeft?_eq_none_iff]
  malformed e := by rw [reading_eq_error_iff, Action.exists_lastLeft?_iff]
  present a := by rw [reading_eq_some_iff, Action.exists_lastLeft?_iff]

theorem readsLast_decoded {rs : List (Outcome Action)} {s : Snapshot} (h : replay root v rs = .ok s)
    (domain : String) (decode? : String → Option α) :
    ReadsLast domain decode? (Results.actions rs) (s.decoded domain decode?) := by
  obtain ⟨p, m, hr, -, -⟩ := replay_eq_ok_iff.1 h
  have hdomains := (Replay.fold (Results.actions rs)).domains domain
  rw [(Replay.applyAll_eq_ok_iff.1 hr).2] at hdomains
  rw [decoded_eq_reading, hdomains]
  exact readsLast_reading domain decode? _

theorem storedHighWaterMark_eq (s : Snapshot) :
    s.storedHighWaterMark =
      s.decoded HighWaterMark.domain fun text ↦ (HighWaterMark.decode? text).map (·.rowId) := by
  rw [storedHighWaterMark, decoded_eq_reading, decoded_eq_reading]
  cases s.domains.get? HighWaterMark.domain with
  | none => rfl
  | some text =>
    simp only [reading]
    cases HighWaterMark.decode? text <;> rfl

theorem highWaterMark_eq_error_iff {s : Snapshot} {e : Error} :
    s.highWaterMark = .error e ↔ s.storedHighWaterMark = .error e := Outcome.map_eq_error_iff

theorem highWaterMark_eq_ok_iff {s : Snapshot} {n : Int64} :
    s.highWaterMark = .ok n ↔
      s.storedHighWaterMark = .ok (some n) ∨
      s.storedHighWaterMark = .ok none ∧ n = HighWaterMark.missing := by
  rw [highWaterMark, Outcome.map_eq_ok_iff]
  constructor
  · rintro ⟨stored, hstored, rfl⟩
    cases stored with
    | none => exact .inr ⟨hstored, rfl⟩
    | some n => exact .inl hstored
  · rintro (hstored | ⟨hstored, rfl⟩)
    · exact ⟨some n, hstored, rfl⟩
    · exact ⟨none, hstored, rfl⟩

/-- Both typed domains survive the log, for every value, and whatever a log says of them, their
readings go by its last word: no value only where there is none, an error where the text does not
decode, and the mark of a table without row ids only in the first case. -/
theorem system_domains_survive :
    (∀ n : Int64, Survives (HighWaterMark.toDomain ⟨n⟩) fun s ↦
      s.storedHighWaterMark = .ok (some n) ∧ s.highWaterMark = .ok n) ∧
    (∀ c : Clustering, Survives c.toDomain fun s ↦ s.clustering = .ok (some c)) ∧
    ∀ (root : Location) (v : Version) (rs : List (Outcome Action)) (s : Snapshot),
      replay root v rs = .ok s →
      ReadsLast HighWaterMark.domain (fun text ↦ (HighWaterMark.decode? text).map (·.rowId))
        (Results.actions rs) s.storedHighWaterMark ∧
      ReadsLast Clustering.domain Clustering.decode? (Results.actions rs) s.clustering ∧
      (∀ e, s.highWaterMark = .error e ↔ s.storedHighWaterMark = .error e) ∧
      ∀ n, s.highWaterMark = .ok n ↔
        s.storedHighWaterMark = .ok (some n) ∨
        s.storedHighWaterMark = .ok none ∧ n = HighWaterMark.missing := by
  refine ⟨fun n ↦ .of_setDomain fun s ↦ ?_, fun c ↦ .of_setDomain fun s ↦ ?_,
    fun root v rs s h ↦ ?_⟩
  · have hdecode : (HighWaterMark.decode? (HighWaterMark.encode ⟨n⟩)).map (·.rowId) = some n := by
      rw [HighWaterMark.decode?_encode]
      rfl
    have hstored : (s.setDomain (HighWaterMark.toDomain ⟨n⟩)).storedHighWaterMark =
        .ok (some n) := by
      rw [storedHighWaterMark_eq]
      exact decoded_setDomain (d := HighWaterMark.toDomain ⟨n⟩) rfl hdecode s
    exact ⟨hstored, highWaterMark_eq_ok_iff.2 (.inl hstored)⟩
  · exact decoded_setDomain (d := c.toDomain) rfl c.decode?_encode s
  · refine ⟨?_, readsLast_decoded h _ _, fun e ↦ highWaterMark_eq_error_iff,
      fun n ↦ highWaterMark_eq_ok_iff⟩
    rw [storedHighWaterMark_eq]
    exact readsLast_decoded h _ _

end Snapshot

namespace Sample

/-- Names that must be escaped and names that must not, and a column without a name. -/
def columns : Clustering :=
  ⟨[["a \"quoted\" \\ name", "line\nend\u0000"], ["größe", "😀"], [], [""]]⟩

def outdated : List Action :=
  [.protocol protocol, .metadata metadata, .domainMetadata (.set Clustering.domain "[]"),
    .domainMetadata (.set HighWaterMark.domain "3"), .domainMetadata (.remove Clustering.domain "")]

def written (d : DomainMetadata) : List (Outcome Action) :=
  outdated.map .ok ++ readActions (writeActions [.add (file "a" 5)] ++
    ((Action.domainMetadata d).line ++ 0x0A :: writeActions [.add (file "b" 2)])) ++
    [.ok (.domainMetadata (.remove "app" "1"))]

theorem read_file (a : Add) : readActions (writeActions [.add a]) = [Action.add a].map .ok :=
  readActions_write (by simp [Action.Canonical])

theorem written_eq (d : DomainMetadata) :
    written d = (outdated ++ [Action.add (file "a" 5), .domainMetadata d, .add (file "b" 2),
      .domainMetadata (.remove "app" "1")]).map .ok := by
  rw [written, readActions_append (read_file (file "a" 5)),
    readActions_line (Action.domainMetadata d).spelledBy_line, read_file]
  rfl

theorem replay_written {d : DomainMetadata} {reads : Snapshot → Prop}
    (h : Snapshot.Survives d reads) (hd : "app" ≠ d.domain) :
    ∃ s, Snapshot.replay root 2 (written d) = .ok s ∧ reads s := by
  have hother (a : Action) (ha : .ok a ∈ readActions (writeActions [.add (file "b" 2)]) ++
      [.ok (.domainMetadata (.remove "app" "1"))]) : a.on? d.domain = none := by
    rw [read_file] at ha
    simp only [List.map_cons, List.map_nil, List.cons_append, List.nil_append, List.mem_cons,
      List.not_mem_nil, or_false, Except.ok.injEq] at ha
    rcases ha with rfl | rfl
    · rfl
    · simp [on?, Action.domain?, DomainMetadata.remove, hd]
  obtain ⟨hreplay, hreads⟩ := h.2 root 2 (outdated.map .ok) _ _ _ _ (read_file (file "a" 5)) hother
  have hok : ∃ s, Snapshot.replay root 2 (written d) = .ok s := by
    rw [written, hreplay, readActions_append (read_file (file "a" 5)), read_file]
    exact ⟨_, rfl⟩
  obtain ⟨s, hs⟩ := hok
  exact ⟨s, hs, hreads s hs⟩

end Sample

open TableLog.Sample (columns written) in
theorem Snapshot.system_domains_survive_quoted :
    (∃ s, replay Sample.root 2 (written columns.toDomain) = .ok s ∧
      s.clustering = .ok (some columns) ∧
      s.storedHighWaterMark = .error .malformedJson ∧ s.highWaterMark = .error .malformedJson) ∧
    ∃ s, replay Sample.root 2 (written (HighWaterMark.toDomain ⟨Int64.minValue⟩)) = .ok s ∧
      s.clustering = .ok none ∧ s.storedHighWaterMark = .ok (some Int64.minValue) ∧
      s.highWaterMark = .ok Int64.minValue := by
  obtain ⟨hmark, hcolumns, hreads⟩ := system_domains_survive
  constructor
  · obtain ⟨s, hs, hclustering⟩ := Sample.replay_written (hcolumns columns) (by decide)
    obtain ⟨hstored, -, hfails, -⟩ := hreads Sample.root 2 _ s hs
    have hlast : last? (on? HighWaterMark.domain) (Results.actions (written columns.toDomain)) =
        some (.set HighWaterMark.domain "3") := by
      rw [Sample.written_eq, Results.actions_ok]
      rfl
    have hmalformed := (hstored.malformed .malformedJson).2 ⟨rfl, _, hlast, rfl, by decide +kernel⟩
    exact ⟨s, hs, hclustering, hmalformed, (hfails _).2 hmalformed⟩
  · obtain ⟨s, hs, hread⟩ := Sample.replay_written (hmark Int64.minValue) (by decide)
    obtain ⟨-, hclustering, -⟩ := hreads Sample.root 2 _ s hs
    have hlast : last? (on? Clustering.domain)
        (Results.actions (written (HighWaterMark.toDomain ⟨Int64.minValue⟩))) =
        some (.remove Clustering.domain "") := by
      rw [Sample.written_eq, Results.actions_ok]
      rfl
    exact ⟨s, hs, hclustering.absent.2 (.inr ⟨_, hlast, rfl⟩), hread⟩

end TableLog
