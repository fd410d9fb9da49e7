import TableLog.Proofs.Assignment

namespace TableLog

def Action.lacksRowIds : Action → Bool
  | .add a => a.baseRowId.isNone
  | _ => false

namespace RowIdAssigner

/-- Everything that can fail comes before the first change of the assigner. -/
theorem fillAdd_run (g : RowIdAssigner) (a : Add) :
    (fillAdd a).run g =
      match g.assignAdd a with
      | .ok (b, g') => .ok b g'
      | .error e => .error e g := by
  obtain ⟨path, values, size, time, change, stats, tags, base, version, provider⟩ := a
  rw [assignAdd]
  cases base with
  | some base => cases version <;> rfl
  | none =>
    simp only [fillAdd, Option.isNone_none, if_true]
    cases (Add.mk path values size time change stats tags none version provider).requiredCount with
    | error e => rfl
    | ok n =>
      simp only [EStateM.run, bind, EStateM.bind, get, getThe, MonadStateOf.get, EStateM.get,
        ofExcept, pure, EStateM.pure]
      cases add? g.next n with
      | none => rfl
      | some next => cases version <;> rfl

theorem answer_eq (g : RowIdAssigner) (a : Action) :
    g.answer a =
      match g.assign a with
      | .ok (b, g') => (.ok b, g')
      | .error e => (.error e, g) := by
  cases a with
  | add a =>
    have hrun := fillAdd_run g a
    rw [answer, fill, assign]
    simp only [EStateM.run, bind, EStateM.bind, pure, EStateM.pure] at hrun ⊢
    rw [hrun]
    cases g.assignAdd a <;> rfl
  | _ => rfl

def answers (g : RowIdAssigner) : List Action → List (Outcome Action)
  | [] => []
  | a :: as => (g.answer a).1 :: (g.answer a).2.answers as

def after (g : RowIdAssigner) (as : List Action) : RowIdAssigner :=
  as.foldl (fun g a ↦ (g.answer a).2) g

def passed (g : RowIdAssigner) (as : List Action) : List Action :=
  ((as.zip (g.answers as)).filter (·.2.isOk)).map (·.1)

variable {g g' : RowIdAssigner} {a b : Action} {as : List Action}

theorem answer_cases (g : RowIdAssigner) (a : Action) :
    (∃ b g', g.assign a = .ok (b, g') ∧ g.answer a = (.ok b, g')) ∨
      ∃ e, g.assign a = .error e ∧ g.answer a = (.error e, g) := by
  rw [answer_eq]
  cases h : g.assign a with
  | ok r => exact .inl ⟨r.1, r.2, rfl, rfl⟩
  | error e => exact .inr ⟨e, rfl, rfl⟩

theorem answer_fst (g : RowIdAssigner) (a : Action) : (g.answer a).1 = (g.assign a).map (·.1) := by
  rcases answer_cases g a with ⟨b, g', hassign, hanswer⟩ | ⟨e, hassign, hanswer⟩
  · rw [hassign, hanswer]
    rfl
  · rw [hassign, hanswer]
    rfl

theorem answer_of_error {e : Error} (h : (g.answer a).1 = .error e) : (g.answer a).2 = g := by
  rcases answer_cases g a with ⟨b, g', -, hanswer⟩ | ⟨e, -, hanswer⟩
  · rw [hanswer] at h
    cases h
  · rw [hanswer]

theorem after_cons (g : RowIdAssigner) (a : Action) (as : List Action) :
    g.after (a :: as) = (g.answer a).2.after as := rfl

theorem after_append (g : RowIdAssigner) (as bs : List Action) :
    g.after (as ++ bs) = (g.after as).after bs :=
  List.foldl_append

theorem length_answers (g : RowIdAssigner) (as : List Action) :
    (g.answers as).length = as.length := by
  induction as generalizing g with
  | nil => rfl
  | cons a as ih => exact congrArg (· + 1) (ih _)

theorem answers_get? (g : RowIdAssigner) (as : List Action) (n : Nat) :
    (g.answers as)[n]? = as[n]?.map fun a ↦ ((g.after (as.take n)).answer a).1 := by
  induction as generalizing g n with
  | nil => rfl
  | cons a as ih =>
    cases n with
    | zero => rfl
    | succ n => exact ih (g.answer a).2 n

theorem after_take_succ (g : RowIdAssigner) {n : Nat} (h : as[n]? = some a) :
    g.after (as.take (n + 1)) = ((g.after (as.take n)).answer a).2 := by
  rw [List.take_add_one, h, after_append]
  rfl

theorem passed_cons (g : RowIdAssigner) (a : Action) (as : List Action) :
    g.passed (a :: as) = (if (g.answer a).1.isOk then [a] else []) ++ (g.answer a).2.passed as := by
  rw [passed, answers, List.zip_cons_cons, List.filter_cons]
  split_ifs <;> rfl

theorem answers_passed (g : RowIdAssigner) (as : List Action) :
    g.answers (g.passed as) = (g.answers as).filter (·.isOk) ∧
    g.after (g.passed as) = g.after as := by
  induction as generalizing g with
  | nil => exact ⟨rfl, rfl⟩
  | cons a as ih =>
    rw [passed_cons, answers]
    rcases answer_cases g a with ⟨b, g', -, hanswer⟩ | ⟨e, -, hanswer⟩
    · obtain ⟨hanswers, hafter⟩ := ih g'
      have hkept : g.answers (a :: g'.passed as) = .ok b :: g'.answers (g'.passed as) := by
        rw [answers, hanswer]
      have hsame : g.after (a :: g'.passed as) = g'.after (g'.passed as) := by
        rw [after_cons, hanswer]
      rw [after_cons, hanswer]
      refine ⟨?_, hsame.trans hafter⟩
      exact hkept.trans (congrArg (.ok b :: ·) hanswers)
    · rw [after_cons, hanswer]
      exact ih g

theorem next_le_answer (g : RowIdAssigner) (a : Action) :
    g.next.toInt ≤ (g.answer a).2.next.toInt := by
  rcases answer_cases g a with ⟨b, g', hassign, hanswer⟩ | ⟨e, -, hanswer⟩
  · rw [hanswer]
    show g.next.toInt ≤ g'.next.toInt
    rcases assign_eq_ok hassign with ⟨x, y, -, -, hadd⟩ | ⟨-, -, rfl⟩
    · rcases (assignAdd_eq_ok hadd).2 with ⟨-, hnext⟩ | ⟨-, hnext, hrecords⟩
      · rw [hnext]
      · omega
    · exact Int.le_refl _
  · rw [hanswer]

theorem next_le_after (g : RowIdAssigner) (as : List Action) :
    g.next.toInt ≤ (g.after as).next.toInt := by
  induction as generalizing g with
  | nil => exact Int.le_refl _
  | cons a as ih => exact (g.next_le_answer a).trans (ih _)

theorem highWaterMark_le_after {low : Int64} (h : low.toInt < g.next.toInt) (as : List Action) :
    g.highWaterMark ≤ (g.after as).highWaterMark := by
  have hle := g.next_le_after as
  rw [Int64.le_iff_toInt_le, highWaterMark_toInt low h, highWaterMark_toInt low (h.trans_le hle)]
  omega

theorem assigned_of_assign (h : g.assign a = .ok (b, g')) :
    g'.assigned = g.assigned + if a.lacksRowIds then 1 else 0 := by
  cases a with
  | add a =>
    obtain ⟨⟨c, k⟩, hadd, hpair⟩ := Outcome.map_eq_ok_iff.1 h
    obtain ⟨-, rfl⟩ := Prod.mk.inj hpair
    rw [assignAdd] at hadd
    cases hbase : a.baseRowId with
    | some base =>
      simp only [hbase] at hadd
      obtain ⟨-, rfl⟩ := Prod.mk.inj (Except.ok.inj hadd)
      simp [Action.lacksRowIds, hbase]
    | none =>
      simp only [hbase] at hadd
      split at hadd
      · cases hadd
      · split at hadd
        · cases hadd
        · obtain ⟨-, rfl⟩ := Prod.mk.inj (Except.ok.inj hadd)
          simp [Action.lacksRowIds, hbase]
  | _ =>
    obtain ⟨-, rfl⟩ := Prod.mk.inj (Except.ok.inj h)
    rfl

theorem assigned_after (g : RowIdAssigner) (as : List Action) :
    (g.after as).assigned = g.assigned + (g.passed as).countP Action.lacksRowIds := by
  induction as generalizing g with
  | nil => rfl
  | cons a as ih =>
    rw [passed_cons, List.countP_append, after_cons, ih]
    rcases answer_cases g a with ⟨b, g', hassign, hanswer⟩ | ⟨e, -, hanswer⟩
    · have hfirst := assigned_of_assign hassign
      simp only [hanswer, Except.isOk, Except.toBool, if_true, List.countP_singleton]
      omega
    · simp [hanswer, Except.isOk, Except.toBool]

theorem assigned_start {mark version : Int64} (h : start mark version = .ok g) :
    g.assigned = 0 := by
  rw [start] at h
  split at h
  · cases h
  · exact Except.ok.inj h ▸ rfl

/-- An assigner in use, and what comes of further actions. A failure leaves it as it is, so the
actions that pass get the same answers without those that fail and leave the same assigner. Its mark
never falls, and it counts the files that it has given row ids. -/
theorem failures_leave_no_trace {mark version : Int64} {g₀ : RowIdAssigner}
    (h : start mark version = .ok g₀) (past as : List Action) :
    let g := g₀.after past
    (g.answers as).length = as.length ∧
    (∀ n a, as[n]? = some a → ∃ r, (g.answers as)[n]? = some r ∧
      r = ((g.after (as.take n)).assign a).map (·.1) ∧
      ∀ e, r = .error e → g.after (as.take (n + 1)) = g.after (as.take n)) ∧
    g.answers (g.passed as) = (g.answers as).filter (·.isOk) ∧ g.after (g.passed as) = g.after as ∧
    (∀ m n, m ≤ n → (g.after (as.take m)).highWaterMark ≤ (g.after (as.take n)).highWaterMark) ∧
    (g.after as).assigned = (g₀.passed (past ++ as)).countP Action.lacksRowIds := by
  intro g
  obtain ⟨hanswers, hafter⟩ := g.answers_passed as
  refine ⟨g.length_answers as,
    fun n a ha ↦ ⟨((g.after (as.take n)).answer a).1, ?_, ?_, fun e he ↦ ?_⟩, hanswers, hafter,
    fun m n hmn ↦ ?_, ?_⟩
  · rw [answers_get?, ha, Option.map_some]
  · exact answer_fst _ a
  · rw [g.after_take_succ ha, answer_of_error he]
  · have hsplit : as.take n = as.take m ++ (as.drop m).take (n - m) := by
      rw [← List.take_add, Nat.add_sub_cancel' hmn]
    have hfirst := start_eq_ok h
    have hpast : g₀.next.toInt ≤ g.next.toInt := g₀.next_le_after past
    have hmiddle := g.next_le_after (as.take m)
    have hmark : mark.toInt < (g.after (as.take m)).next.toInt := by omega
    rw [hsplit, after_append]
    exact highWaterMark_le_after hmark _
  · rw [← after_append, assigned_after, assigned_start h, Nat.zero_add]

end RowIdAssigner

/-- Near the last row id: no statistics, a file too large for what is left, one
that just fits, a negative count, a file that brought its row ids, statistics
that are cut short, and an empty file. -/
def Sample.faltering : List Action :=
  [.add { file "lost" 1 with stats := none }, .add (file "large" 5), .add (file "b" 4),
    .add (file "odd" (-1)), .add { file "brought" 1 with baseRowId := some 2 },
    .add { file "torn" 1 with stats := some "\x7b" }, .add (file "empty" 0)]

open TableLog.Sample (file faltering) in
theorem RowIdAssigner.failures_leave_no_trace_faltering :
    ∃ g₀, start 9223372036854775800 3 = .ok g₀ ∧
      let g := g₀.after [.add (file "a" 2)]
      (g.answers faltering).map (·.toOption.isSome) =
        [false, false, true, false, true, false, true] ∧
      g.after (faltering.take 2) = g.after (faltering.take 1) ∧
      g.answers [faltering[2], faltering[4], faltering[6]] = (g.answers faltering).filter (·.isOk) ∧
      g.after [faltering[2], faltering[4], faltering[6]] = g.after faltering ∧
      (g.after (faltering.take 2)).highWaterMark ≤ (g.after (faltering.take 3)).highWaterMark ∧
      (g.after faltering).assigned = 3 := by
  have hstart : start 9223372036854775800 3 = .ok ⟨9223372036854775801, 3, 0⟩ := by decide +kernel
  refine ⟨_, hstart, ?_⟩
  intro g
  obtain ⟨-, hanswers, hpassed, hafter, hmark, hcount⟩ :=
    failures_leave_no_trace hstart [.add (file "a" 2)] faltering
  have hkept : g.passed faltering = [faltering[2], faltering[4], faltering[6]] := by decide +kernel
  obtain ⟨r, hr, -, hunchanged⟩ := hanswers 1 (.add (file "large" 5)) rfl
  have hlarge : (g.answers faltering)[1]? =
      some (.error (.overflow "Row id range of large exceeds i64")) := by
    decide +kernel
  rw [← hkept]
  refine ⟨by decide +kernel, ?_, hpassed, hafter, hmark 2 3 (by decide),
    hcount.trans (by decide +kernel)⟩
  exact hunchanged _ (Option.some.inj (hr.symm.trans hlarge))

end TableLog
