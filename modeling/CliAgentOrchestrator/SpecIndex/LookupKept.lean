import CliAgentOrchestrator.SpecIndex.Scan

/-!
# Lookups reflect the directory

In an orderly run the row of every file that alone defines its name is in the index, or is owed by
a call that has emptied it; a call reads the index when nothing is owed. `lookup_reflects` carries
this over whole runs. Without the condition a file is lost to a reader in the middle of somebody
else's scan, and two files of one name give one of them (`lookup_lost_or_chosen`).
-/

set_option autoImplicit false

namespace CliAgentOrchestrator.SpecIndex

open Library

variable {grammar : Grammar}

/-- The row of a file that alone defines its name is there or owed. -/
def Owed (grammar : Grammar) (w : World) : Prop :=
  ∀ path spec, Sole grammar w.store.files spec.name path →
    specAt grammar w.store.files path = some spec →
      w.store.index.get spec.name = some (indexRow spec path) ∨
        ∃ (j : Nat) (r : Request), w.requests[j]? = some r ∧ r.stage = .rebuilding ∧
          Owes grammar path spec r.rest

/-- What every step keeps. -/
structure Inv (grammar : Grammar) (w : World) : Prop where
  conduct : ∀ (j : Nat) r, w.requests[j]? = some r →
    Conduct grammar r.begun r.call (fun reply s => Right grammar r.begun s.files r.call reply)
      r.rest w.store
  shrunk : ∀ (j : Nat) r, w.requests[j]? = some r → Shrunk grammar r.begun w.store.files
  empties : ∀ (j : Nat) r, w.requests[j]? = some r → r.stage = .scanning → Empties r.rest
  promises : ∀ (j : Nat) r, w.requests[j]? = some r → ∀ path spec,
    Sole grammar w.store.files spec.name path → specAt grammar w.store.files path = some spec →
      Promises grammar path spec r.rest
  owed : ∀ (j : Nat) r, w.requests[j]? = some r → r.stage ≠ .scanning → Owed grammar w
  current : ∀ (j : Nat) r, w.requests[j]? = some r → r.stage ≠ .scanning →
    Current grammar w.store
  listed : ∀ (j : Nat) r, w.requests[j]? = some r → r.Listing →
    Listed grammar r.begun w.store.index

theorem Inv.start (files : Directory) (index : Table WorkflowIndexRow.name) :
    Inv grammar ⟨⟨files, index⟩, []⟩ := by
  constructor <;> intro j r hr <;> simp at hr

/-! ## A call begins -/

/-- A call that begins keeps the invariant. -/
theorem Inv.begin {w : World} (h : Inv grammar w) {call : Call}
    (hname : ∀ name ∈ call.name?, Workflow.Yaml.nameMatches name = true ∨
      Undefined grammar w.store.files name) :
    Inv grammar (w.exec grammar (.begin call)) := by
  -- a request behind the event is an old one or the new one
  have hcases : ∀ (j : Nat) r, (w.exec grammar (.begin call)).requests[j]? = some r →
      w.requests[j]? = some r ∨ r = ⟨call, w.store.files, .scanning, call.program grammar⟩ := by
    intro j r hr
    change (w.requests ++ [_])[j]? = some r at hr
    rw [List.getElem?_append] at hr
    split at hr
    · exact .inl hr
    · rw [List.getElem?_singleton] at hr
      split at hr
      · exact .inr (Option.some.inj hr).symm
      · cases hr
  have howed : Owed grammar w → Owed grammar (w.exec grammar (.begin call)) := by
    intro howed path spec hsole hspec
    obtain hrow | ⟨j, r, hr, hstage, howes⟩ := howed path spec hsole hspec
    · exact .inl hrow
    · refine .inr ⟨j, r, ?_, hstage, howes⟩
      change (w.requests ++ [_])[j]? = some r
      rw [List.getElem?_append_left (List.getElem?_eq_some_iff.mp hr).1]
      exact hr
  constructor
  · intro j r hr
    obtain hold | rfl := hcases j r hr
    · exact h.conduct j r hold
    · exact SpecIndex.conduct hname
  · intro j r hr
    obtain hold | rfl := hcases j r hr
    · exact h.shrunk j r hold
    · exact Shrunk.refl _
  · intro j r hr hstage
    obtain hold | rfl := hcases j r hr
    · exact h.empties j r hold hstage
    · exact empties_program call
  · intro j r hr path spec hsole hspec
    obtain hold | rfl := hcases j r hr
    · exact h.promises j r hold path spec hsole hspec
    · exact promises_program call
  · intro j r hr hstage
    obtain hold | rfl := hcases j r hr
    · exact howed (h.owed j r hold hstage)
    · exact absurd rfl hstage
  · intro j r hr hstage
    obtain hold | rfl := hcases j r hr
    · exact h.current j r hold hstage
    · exact absurd rfl hstage
  · intro j r hr hlisting
    obtain hold | rfl := hcases j r hr
    · exact h.listed j r hold hlisting
    · exact absurd rfl hlisting.2.1

/-! ## A call takes an operation -/

section Step

variable {w : World} {i : Nat} {call : Call} {begun : Directory} {stage : Stage} {op : SpecOp}
  {next : op.Answer → Steps Reply}

/-- Only emptying the index takes a call out of its scanning, and no call reads before. -/
theorem stage_of_after (hempties : stage = .scanning → Empties (.step op next : Steps Reply))
    (hafter : stage.after op ≠ .scanning) : stage ≠ .scanning ∨ op = .deleteRows := by
  by_cases hstage : stage = .scanning
  · obtain (⟨result, h⟩ | hhead) | ⟨hselect, -⟩ := hempties hstage
    · cases h
    · exact .inr (Option.some.inj hhead)
    · cases op <;> first
        | exact .inr rfl
        | exact absurd rfl hselect
        | exact absurd hstage hafter
  · exact .inl hstage

theorem not_scanning_of_select
    (hempties : stage = .scanning → Empties (.step op next : Steps Reply))
    (hselect : op.isSelect = true) : stage ≠ .scanning := by
  intro hstage
  obtain (⟨result, h⟩ | hhead) | ⟨hnot, -⟩ := hempties hstage
  · cases h
  · cases Option.some.inj hhead
    cases hselect
  · exact hnot hselect

/-- A call that is still scanning has its emptying before it. -/
theorem empties_next {s : Store}
    (hempties : stage = .scanning → Empties (.step op next : Steps Reply))
    (hafter : stage.after op = .scanning) : Empties (next (op.exec s).1) := by
  have hstage : stage = .scanning := by
    cases op <;> first
      | exact hafter
      | cases hafter
  obtain (⟨result, h⟩ | hhead) | ⟨-, hnext⟩ := hempties hstage
  · cases h
  · cases Option.some.inj hhead
    cases hafter
  · exact hnext s trivial

theorem Owes.isSelect_eq_false {path : SpecPath} {spec : Spec} {p : Steps Reply}
    (h : Owes grammar path spec p) : ∀ op ∈ p.head?, op.isSelect = false := by
  intro op hop
  cases p with
  | done reply => cases hop
  | step op' next' =>
    cases hop
    obtain hhead | ⟨hselect, -⟩ := h
    · cases hhead
      rfl
    · exact Bool.eq_false_iff.mpr hselect

/-- Nothing is owed to a reader when nobody else is refilling the index. -/
theorem complete_of_select (h : Inv grammar w)
    (hr : w.requests[i]? = some ⟨call, begun, stage, .step op next⟩) (hselect : op.isSelect = true)
    (hothers : ∀ r ∈ w.others i, ¬ r.Refilling) : Complete grammar w.store := by
  have hstage := not_scanning_of_select (h.empties i _ hr) hselect
  intro name path spec hsole hspec
  obtain rfl := defines_unique hsole.1 (defines_of_specAt hspec)
  obtain hrow | ⟨j, r, hj, hrefill, howes⟩ := h.owed i _ hr hstage path spec hsole hspec
  · exact hrow
  · by_cases hij : j = i
    · subst hij
      cases hr.symm.trans hj
      have hnot := howes.isSelect_eq_false op rfl
      rw [hselect] at hnot
      cases hnot
    · have hother : r ∈ w.others i := List.mem_eraseIdx_iff_getElem?.mpr ⟨j, hij, hj⟩
      exact absurd ⟨hrefill, howes.isSelect_eq_false⟩ (hothers r hother)

/-- What a clear operation finds. -/
theorem finds_of_clear (h : Inv grammar w)
    (hr : w.requests[i]? = some ⟨call, begun, stage, .step op next⟩)
    (hclear : w.Clear grammar i op) : Finds grammar begun call op w.store := by
  refine ⟨h.shrunk i _ hr, ?_⟩
  cases op with
  | glob pattern extension => exact hclear
  | read path => exact hclear
  | selectRows =>
    have hstage := not_scanning_of_select (h.empties i _ hr) rfl
    exact ⟨complete_of_select h hr rfl hclear,
      fun hcall => h.listed i _ hr ⟨hcall, hstage, rfl⟩⟩
  | selectSourcePath name =>
    have hstage := not_scanning_of_select (h.empties i _ hr) rfl
    exact ⟨hclear.2, complete_of_select h hr rfl hclear.1, h.current i _ hr hstage⟩
  | _ => trivial

/-! ### The index behind the operation -/

theorem current_exec {s : Store} (hbegun : Shrunk grammar begun s.files)
    (hanswers : AnswersFor grammar begun call op s) (hlater : Meanwhile grammar s (op.exec s).2)
    (hcurrent : op ≠ .deleteRows → Current grammar s) : Current grammar (op.exec s).2 := by
  intro row hrow hsome
  have hsome₀ : (s.files.find row.sourcePath).isSome := by
    obtain ⟨raw, hraw⟩ := Option.isSome_iff_exists.mp hsome
    rw [hlater.kept _ raw hraw]
    rfl
  obtain ⟨hnot, hold⟩ | rfl := SpecOp.mem_rows_exec hrow
  · exact hlater.defines_new (hcurrent hnot row hold hsome₀) hsome
  · obtain ⟨spec, hspec, heq⟩ := hanswers
    have hname : row.name = spec.name := by rw [heq, indexRow_name]
    rw [hname]
    exact hlater.defines_new (defines_of_specAt (hbegun.specAt_new hspec hsome₀)) hsome

theorem listed_exec {s : Store} {d : Directory}
    (hwrites : ∀ row, op = .upsertRow row → ∃ spec, specAt grammar d row.sourcePath = some spec ∧
      row = indexRow spec row.sourcePath)
    (hlisted : op ≠ .deleteRows → Listed grammar d s.index) :
    Listed grammar d (op.exec s).2.index := by
  intro row hrow
  obtain ⟨hnot, hold⟩ | hwrite := SpecOp.mem_rows_exec hrow
  · exact hlisted hnot row hold
  · exact hwrites row hwrite

/-- The row of a file that alone defines its name stays: nobody writes another one under the
name. -/
theorem get_exec {s : Store} {path : SpecPath} {spec : Spec}
    (hbegun : Shrunk grammar begun s.files) (hanswers : AnswersFor grammar begun call op s)
    (hsole : Sole grammar s.files spec.name path) (hspec : specAt grammar s.files path = some spec)
    (hnot : op ≠ .deleteRows) (hget : s.index.get spec.name = some (indexRow spec path)) :
    (op.exec s).2.index.get spec.name = some (indexRow spec path) := by
  cases op with
  | deleteRows => exact absurd rfl hnot
  | upsertRow row =>
    change (s.index.upsert row (SpecOp.rowPatch row)).get spec.name = _
    rw [SpecOp.get_upsertRow]
    split
    · next hname =>
      obtain ⟨spec', hspec', heq⟩ := hanswers
      rw [heq, indexRow_name] at hname
      have hdef : Defines grammar begun spec.name row.sourcePath := by
        rw [hname]
        exact defines_of_specAt hspec'
      cases hthere : s.files.find row.sourcePath with
      | none => exact absurd hsole.1 (hbegun.gone spec.name _ hdef hthere path)
      | some raw =>
        have hsome : (s.files.find row.sourcePath).isSome := by
          rw [hthere]
          rfl
        have hpath := hsole.2 _ (hbegun.defines_new hdef hsome)
        rw [← hpath, hbegun.specAt_new hspec' hsome] at hspec
        cases hspec
        rw [heq, hpath]
    · exact hget
  | deleteRow name =>
    change (s.index.deleteKey name).get spec.name = _
    rw [Table.get_deleteKey]
    split
    · next hname =>
      subst hname
      exact absurd hsole.1 (hanswers path)
    · exact hget
  | _ => exact hget

/-- What is owed is written, or still owed. -/
theorem Owes.exec {s : Store} {path : SpecPath} {spec : Spec}
    (howes : Owes grammar path spec (.step op next : Steps Reply))
    (hstays : Stays grammar path spec op s) :
    (op.exec s).2.index.get spec.name = some (indexRow spec path) ∨
      op.isSelect = false ∧ Owes grammar path spec (next (op.exec s).1) := by
  obtain hhead | ⟨hselect, hnext⟩ := howes
  · cases hhead
    refine .inl ?_
    change (s.index.upsert _ (SpecOp.rowPatch _)).get spec.name = _
    rw [SpecOp.get_upsertRow, if_pos (indexRow_name spec path).symm]
  · exact .inr ⟨Bool.eq_false_iff.mpr hselect, hnext s hstays⟩

/-! ### All of it -/

theorem exec_step (hr : w.requests[i]? = some ⟨call, begun, stage, .step op next⟩) :
    w.exec grammar (.step i) =
      { store := (op.exec w.store).2
        requests := w.requests.set i ⟨call, begun, stage.after op, next (op.exec w.store).1⟩ } := by
  simp only [World.exec, hr]

/-- A request behind the operation is another one, or the one that took it. -/
theorem request_cases (hr : w.requests[i]? = some ⟨call, begun, stage, .step op next⟩) {j : Nat}
    {r : Request} (hj : (w.exec grammar (.step i)).requests[j]? = some r) :
    (j ≠ i ∧ w.requests[j]? = some r) ∨
      j = i ∧ r = ⟨call, begun, stage.after op, next (op.exec w.store).1⟩ := by
  rw [exec_step hr] at hj
  change (w.requests.set i _)[j]? = some r at hj
  by_cases hij : j = i
  · subst hij
    rw [List.getElem?_set_self (List.getElem?_eq_some_iff.mp hr).1] at hj
    exact .inr ⟨rfl, (Option.some.inj hj).symm⟩
  · rw [List.getElem?_set_ne (Ne.symm hij)] at hj
    exact .inl ⟨hij, hj⟩

theorem stays_of_clear (hclear : w.Clear grammar i op) {path : SpecPath} {spec : Spec}
    (hsole : Sole grammar w.store.files spec.name path)
    (hspec : specAt grammar w.store.files path = some spec) :
    Stays grammar path spec op w.store := by
  refine ⟨hsole, hspec, ?_, ?_⟩
  · rintro pattern extension rfl
    exact hclear
  · rintro other rfl
    exact hclear

/-- Behind an emptying everything is owed by the call that emptied; behind any other operation
what was there or owed is. -/
theorem owed_exec (h : Inv grammar w)
    (hr : w.requests[i]? = some ⟨call, begun, stage, .step op next⟩)
    (hclear : w.Clear grammar i op) (hanswers : AnswersFor grammar begun call op w.store)
    (hlater : Meanwhile grammar w.store (op.exec w.store).2)
    (howed : op ≠ .deleteRows → Owed grammar w) : Owed grammar (w.exec grammar (.step i)) := by
  rw [exec_step hr]
  intro path spec hsole' hspec'
  have hsole : Sole grammar w.store.files spec.name path := Shrunk.sole hlater hsole'
  have hspec : specAt grammar w.store.files path = some spec := hlater.specAt_old hspec'
  have hstays := stays_of_clear hclear hsole hspec
  have hself : (w.requests.set i ⟨call, begun, stage.after op, next (op.exec w.store).1⟩)[i]? =
      some ⟨call, begun, stage.after op, next (op.exec w.store).1⟩ :=
    List.getElem?_set_self (List.getElem?_eq_some_iff.mp hr).1
  by_cases hdelete : op = .deleteRows
  · subst hdelete
    exact .inr ⟨i, _, hself, rfl, (h.promises i _ hr path spec hsole hspec).1⟩
  · obtain hget | ⟨j, r, hj, hstage, howes⟩ := howed hdelete path spec hsole hspec
    · exact .inl (get_exec (h.shrunk i _ hr) hanswers hsole hspec hdelete hget)
    · by_cases hij : j = i
      · subst hij
        cases hr.symm.trans hj
        obtain hget | ⟨hselect, hnext⟩ := howes.exec hstays
        · exact .inl hget
        · refine .inr ⟨j, _, hself, ?_, hnext⟩
          change stage = .rebuilding at hstage
          cases op <;> first
            | exact hstage
            | rfl
            | cases hselect
      · refine .inr ⟨j, r, ?_, hstage, howes⟩
        rw [List.getElem?_set_ne (Ne.symm hij)]
        exact hj

/-- An operation that is clear keeps the invariant. -/
theorem Inv.step (h : Inv grammar w)
    (hr : w.requests[i]? = some ⟨call, begun, stage, .step op next⟩)
    (hclear : w.Clear grammar i op) : Inv grammar (w.exec grammar (.step i)) := by
  obtain ⟨hanswers, hnext⟩ :=
    h.conduct i _ hr w.store (Meanwhile.refl w.store) (finds_of_clear h hr hclear)
  have hlater := AnswersFor.meanwhile op w.store hanswers
  have hstore : (w.exec grammar (.step i)).store = (op.exec w.store).2 := by rw [exec_step hr]
  -- whoever is past its emptying was so before, or this operation is an emptying
  have hpast : ∀ (j : Nat) r, (w.exec grammar (.step i)).requests[j]? = some r →
      r.stage ≠ .scanning → op ≠ .deleteRows →
        ∃ (j : Nat) (r : Request), w.requests[j]? = some r ∧ r.stage ≠ .scanning := by
    intro j r hj hstage hnot
    obtain ⟨-, hold⟩ | ⟨-, rfl⟩ := request_cases hr hj
    · exact ⟨j, r, hold, hstage⟩
    · exact ⟨i, _, hr, (stage_of_after (h.empties i _ hr) hstage).resolve_right hnot⟩
  constructor
  · intro j r hj
    rw [hstore]
    obtain ⟨-, hold⟩ | ⟨-, rfl⟩ := request_cases hr hj
    · exact Conduct.later (h.conduct j r hold) hlater
    · exact hnext
  · intro j r hj
    rw [hstore]
    obtain ⟨-, hold⟩ | ⟨-, rfl⟩ := request_cases hr hj
    · exact (h.shrunk j r hold).trans hlater
    · exact (h.shrunk i _ hr).trans hlater
  · intro j r hj hstage
    obtain ⟨-, hold⟩ | ⟨-, rfl⟩ := request_cases hr hj
    · exact h.empties j r hold hstage
    · exact empties_next (h.empties i _ hr) hstage
  · intro j r hj path spec hsole hspec
    rw [hstore] at hsole hspec
    have hsole₀ := Shrunk.sole hlater hsole
    have hspec₀ := Shrunk.specAt_old hlater hspec
    obtain ⟨-, hold⟩ | ⟨-, rfl⟩ := request_cases hr hj
    · exact h.promises j r hold path spec hsole₀ hspec₀
    · exact (h.promises i _ hr path spec hsole₀ hspec₀).2 w.store
        (stays_of_clear hclear hsole₀ hspec₀)
  · intro j r hj hstage
    refine owed_exec h hr hclear hanswers hlater fun hnot => ?_
    obtain ⟨j', r', hj', hstage'⟩ := hpast j r hj hstage hnot
    exact h.owed j' r' hj' hstage'
  · intro j r hj hstage
    rw [hstore]
    refine current_exec (h.shrunk i _ hr) hanswers hlater fun hnot => ?_
    obtain ⟨j', r', hj', hstage'⟩ := hpast j r hj hstage hnot
    exact h.current j' r' hj' hstage'
  · intro j r hj hlisting
    rw [hstore]
    obtain ⟨hij, hold⟩ | ⟨-, rfl⟩ := request_cases hr hj
    · refine listed_exec ?_ fun _ => h.listed j r hold hlisting
      rintro row rfl
      obtain ⟨spec, hspec, heq⟩ := hanswers
      obtain hsome | hnone := hclear
      · exact ⟨spec, (h.shrunk j r hold).specAt_old
          ((h.shrunk i _ hr).specAt_new hspec hsome), heq⟩
      · exact absurd hlisting (hnone r (List.mem_eraseIdx_iff_getElem?.mpr ⟨j, hij, hold⟩))
    · have hstage := stage_of_after (h.empties i _ hr) hlisting.2.1
      refine listed_exec ?_ fun hnot =>
        h.listed i ⟨call, begun, stage, .step op next⟩ hr
          ⟨hlisting.1, hstage.resolve_right hnot, rfl⟩
      rintro row rfl
      exact hanswers

end Step

/-! ## Every step -/

theorem Inv.exec {w : World} (h : Inv grammar w) (e : Event) (horderly : w.Orderly grammar e) :
    Inv grammar (w.exec grammar e) := by
  cases e with
  | begin call => exact h.begin horderly
  | step i =>
    cases hr : w.requests[i]? with
    | none =>
      have hsame : w.exec grammar (.step i) = w := by simp only [World.exec, hr]
      rw [hsame]
      exact h
    | some r =>
      obtain ⟨call, begun, stage, rest⟩ := r
      cases rest with
      | done reply =>
        have hsame : w.exec grammar (.step i) = w := by simp only [World.exec, hr]
        rw [hsame]
        exact h
      | step op next => exact h.step hr (horderly _ hr op rfl)

end CliAgentOrchestrator.SpecIndex
