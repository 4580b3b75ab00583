import P101Report.Library.Loops
import P101Report.Output.TraceWindow

/-!
# The bounds of a trace in machine arithmetic

`p101_report_trace_bounds` and the two loops that print a trace, pass by pass, with `size_t` indices
that wrap at `SIZE_MAX` and with `SIZE_MAX` as the bound that means nothing. A pass faults when it
reads behind the last call record, or counts the depth down at zero. Whatever the call records are,
no pass faults, and the bounds are `SIZE_MAX` or indices of the table (`traceBounds_usable`); they
are those of `traceBounds` (`traceBoundsRun_iff`).
-/

set_option autoImplicit false

namespace P101Report

open Loops

variable {lib : ToolEventLib}

/-! ## The loops of the source -/

/-- `n + 1` in `size_t`. -/
def sizeIncrement (lib : ToolEventLib) (n : Nat) : Nat := (n + 1) % (lib.sizeMax + 1)

/-- `n - 1` in `size_t`. -/
def sizeDecrement (lib : ToolEventLib) (n : Nat) : Nat := (n + lib.sizeMax) % (lib.sizeMax + 1)

/-- The variables of the first loop of `p101_report_trace_bounds`: `index`, `*begin` and
`best_sequence`. -/
structure BeginState where
  index : Nat
  first : Nat
  bestSequence : Nat

/-- One pass of the first loop. -/
def beginPass (lib : ToolEventLib) (site : SourceSite) (finding : Finding)
    (calls : List CallEvent) (s : BeginState) : Pass BeginState :=
  if s.index < calls.length then
    match calls[s.index]? with
    | none => .fault
    | some call =>
      if call.kind = .enter ∧ call.eventSequence ≤ finding.eventSequence ∧
          s.bestSequence ≤ call.eventSequence ∧
          siteMatchesCall site call finding.pid finding.contextId = true then
        .next ⟨sizeIncrement lib s.index, s.index, call.eventSequence⟩
      else .next { s with index := sizeIncrement lib s.index }
  else .stop

/-- The variables of the second loop: `index`, `depth`, and `*end` once the function has returned
from within the loop. -/
structure EndState where
  index : Nat
  depth : Nat
  returned : Option Nat

/-- One pass of the second loop. -/
def endPass (lib : ToolEventLib) (finding : Finding) (calls : List CallEvent)
    (callName : Option Text) (s : EndState) : Pass EndState :=
  if s.returned = none ∧ s.index < calls.length then
    match calls[s.index]? with
    | none => .fault
    | some call =>
      if call.pid ≠ finding.pid ∨ call.contextId ≠ finding.contextId ∨
          call.callName ≠ callName then
        .next { s with index := sizeIncrement lib s.index }
      else if call.kind = .enter then
        .next { s with index := sizeIncrement lib s.index, depth := sizeIncrement lib s.depth }
      -- `depth--` at zero would wrap
      else if s.depth = 0 then .fault
      else if sizeDecrement lib s.depth = 0 then .next { s with returned := some s.index }
      else .next { s with
        index := sizeIncrement lib s.index, depth := sizeDecrement lib s.depth }
  else .stop

/-- A run of `p101_report_trace_bounds` that leaves these bounds. -/
inductive TraceBoundsRun (model : ReportModel lib) (finding : Finding) : Nat → Nat → Prop
  | unmatched {site : SourceSite} {selected : BeginState}
      (hsite : model.siteAt finding.site = some site)
      (hbegin : Halts (beginPass lib site finding model.calls.items) ⟨0, lib.sizeMax, 0⟩ selected)
      (hfirst : selected.first = lib.sizeMax) : TraceBoundsRun model finding lib.sizeMax lib.sizeMax
  | matched {site : SourceSite} {selected : BeginState} {call : CallEvent} {counted : EndState}
      (hsite : model.siteAt finding.site = some site)
      (hbegin : Halts (beginPass lib site finding model.calls.items) ⟨0, lib.sizeMax, 0⟩ selected)
      (hfirst : selected.first ≠ lib.sizeMax)
      (hcall : model.calls.items[selected.first]? = some call)
      (hend : Halts (endPass lib finding model.calls.items call.callName) ⟨selected.first, 0, none⟩
        counted) :
      TraceBoundsRun model finding selected.first
        (counted.returned.getD (sizeDecrement lib model.calls.items.length))

/-- The variables of the loops that print a trace: `index`, `printed`, and whether an error has been
raised. -/
structure PrintState where
  index : Nat
  printed : Nat
  raised : Bool

/-- One pass of the loop of `p101_report_print_trace_context`, and of that of
`p101_report_print_json_trace_context`; `fails` says which records cannot be written. -/
def printPass (lib : ToolEventLib) (finding : Finding) (calls : List CallEvent) (last : Nat)
    (fails : Nat → Bool) (s : PrintState) : Pass PrintState :=
  if s.index ≠ lib.sizeMax ∧ s.index ≤ last ∧ s.printed < traceContextLimit ∧
      s.raised = false then
    match calls[s.index]? with
    | none => .fault
    | some call =>
      if call.pid = finding.pid ∧ call.contextId = finding.contextId then
        .next ⟨sizeIncrement lib s.index, sizeIncrement lib s.printed, fails s.index⟩
      else .next { s with index := sizeIncrement lib s.index }
  else .stop

/-! ## Arithmetic without wrapping -/

theorem sizeIncrement_of_lt {n : Nat} (h : n < lib.sizeMax) : sizeIncrement lib n = n + 1 :=
  Nat.mod_eq_of_lt (Nat.succ_lt_succ h)

theorem sizeDecrement_of_pos {n : Nat} (hpos : 0 < n) (h : n ≤ lib.sizeMax) :
    sizeDecrement lib n = n - 1 := by
  obtain ⟨k, rfl⟩ := Nat.exists_eq_succ_of_ne_zero (Nat.pos_iff_ne_zero.1 hpos)
  have hwrap : k.succ + lib.sizeMax = k + (lib.sizeMax + 1) := by omega
  rw [sizeDecrement, hwrap, Nat.add_mod_right, Nat.mod_eq_of_lt (by omega)]
  rfl

/-! ## The loops against the functions of the report -/

section Runs

variable {site : SourceSite} {finding : Finding} {callName : Option Text}

/-- The first loop, behind the records that it has read. -/
theorem beginPass_halts (site : SourceSite) (finding : Finding) (done rest : List CallEvent)
    (first : Option Nat) (bestSequence : Nat) (hcount : (done ++ rest).length ≤ lib.sizeMax) :
    ∃ r, Halts (beginPass lib site finding (done ++ rest))
        ⟨done.length, first.getD lib.sizeMax, bestSequence⟩ r ∧
      r.first = (traceBegin site finding rest done.length first bestSequence).getD lib.sizeMax := by
  induction rest generalizing done first bestSequence with
  | nil =>
    refine ⟨⟨done.length, first.getD lib.sizeMax, bestSequence⟩, .stop ?_, rfl⟩
    rw [beginPass, List.append_nil]
    exact if_neg (Nat.lt_irrefl _)
  | cons call rest ih =>
    have hlt : done.length < (done ++ call :: rest).length := by simp
    have hget : (done ++ call :: rest)[done.length]? = some call := by simp
    have hindex : sizeIncrement lib done.length = (done ++ [call]).length := by
      rw [sizeIncrement_of_lt (by omega), List.length_append, List.length_singleton]
    rw [List.append_cons] at hcount
    -- `done` has been read; the pass at its length reads `call`
    by_cases hcandidate : call.kind = .enter ∧ call.eventSequence ≤ finding.eventSequence ∧
        bestSequence ≤ call.eventSequence ∧
        siteMatchesCall site call finding.pid finding.contextId = true
    · obtain ⟨r, hrun, hr⟩ := ih (done ++ [call]) (some done.length) call.eventSequence hcount
      rw [← List.append_cons] at hrun
      refine ⟨r, .next ?_ hrun, ?_⟩
      · rw [beginPass, if_pos hlt]
        simp only [hget]
        rw [if_pos hcandidate, hindex, Option.getD_some]
      · rw [hr, traceBegin, if_pos hcandidate, List.length_append, List.length_singleton]
    · obtain ⟨r, hrun, hr⟩ := ih (done ++ [call]) first bestSequence hcount
      rw [← List.append_cons] at hrun
      refine ⟨r, .next ?_ hrun, ?_⟩
      · rw [beginPass, if_pos hlt]
        simp only [hget]
        rw [if_neg hcandidate, hindex]
      · rw [hr, traceBegin, if_neg hcandidate, List.length_append, List.length_singleton]

/-- The second loop within a call: the depth is positive before every pass, and does not exceed the
number of records read. -/
theorem endPass_halts (finding : Finding) (callName : Option Text) (done rest : List CallEvent)
    {depth : Nat} (hpos : 0 < depth) (hdepth : depth ≤ done.length)
    (hcount : (done ++ rest).length ≤ lib.sizeMax) :
    ∃ r, Halts (endPass lib finding (done ++ rest) callName) ⟨done.length, depth, none⟩ r ∧
      r.returned = traceEnd finding callName rest done.length depth := by
  induction rest generalizing done depth with
  | nil =>
    refine ⟨⟨done.length, depth, none⟩, .stop ?_, rfl⟩
    rw [endPass, List.append_nil]
    exact if_neg fun h => Nat.lt_irrefl _ h.2
  | cons call rest ih =>
    have hlt : done.length < (done ++ call :: rest).length := by simp
    have hget : (done ++ call :: rest)[done.length]? = some call := by simp
    have hlength : (done ++ [call]).length = done.length + 1 := by simp
    have hindex : sizeIncrement lib done.length = (done ++ [call]).length := by
      rw [sizeIncrement_of_lt (by omega), hlength]
    have hdown : sizeDecrement lib depth = depth - 1 := sizeDecrement_of_pos hpos (by omega)
    have hup : sizeIncrement lib depth = depth + 1 := sizeIncrement_of_lt (by omega)
    rw [List.append_cons] at hcount
    -- a record of another call leaves the depth alone, an `ENTER` raises it, an `EXIT` lowers it
    by_cases hother : call.pid ≠ finding.pid ∨ call.contextId ≠ finding.contextId ∨
        call.callName ≠ callName
    · obtain ⟨r, hrun, hr⟩ := ih (done ++ [call]) hpos (by omega) hcount
      rw [← List.append_cons] at hrun
      refine ⟨r, .next ?_ hrun, ?_⟩
      · rw [endPass, if_pos ⟨rfl, hlt⟩]
        simp only [hget]
        rw [if_pos hother, hindex]
      · rw [hr, traceEnd, if_pos hother, hlength]
    · by_cases henter : call.kind = .enter
      · obtain ⟨r, hrun, hr⟩ := ih (done ++ [call]) (Nat.succ_pos depth) (by omega) hcount
        rw [← List.append_cons] at hrun
        refine ⟨r, .next ?_ hrun, ?_⟩
        · rw [endPass, if_pos ⟨rfl, hlt⟩]
          simp only [hget]
          rw [if_neg hother, if_pos henter, hindex, hup]
        · rw [hr, traceEnd, if_neg hother, if_pos henter, hlength]
      · by_cases hlast : depth - 1 = 0
        · -- the `EXIT` of the call: the function returns
          refine ⟨⟨done.length, depth, some done.length⟩, .next ?_ (.stop ?_), ?_⟩
          · rw [endPass, if_pos ⟨rfl, hlt⟩]
            simp only [hget]
            rw [if_neg hother, if_neg henter, if_neg (Nat.pos_iff_ne_zero.1 hpos), hdown,
              if_pos hlast]
          · rw [endPass]
            exact if_neg fun h => by cases h.1
          · rw [traceEnd, if_neg hother, if_neg henter, if_pos hlast]
        · obtain ⟨r, hrun, hr⟩ :=
            ih (done ++ [call]) (Nat.pos_of_ne_zero hlast) (by omega) hcount
          rw [← List.append_cons] at hrun
          refine ⟨r, .next ?_ hrun, ?_⟩
          · rw [endPass, if_pos ⟨rfl, hlt⟩]
            simp only [hget]
            rw [if_neg hother, if_neg henter, if_neg (Nat.pos_iff_ne_zero.1 hpos), hdown,
              if_neg hlast, hindex]
          · rw [hr, traceEnd, if_neg hother, if_neg henter, if_neg hlast, hlength]

/-- The second loop from the selected `ENTER` on: its first pass counts the depth up to one. -/
theorem endPass_halts_of_enter {calls : List CallEvent} {first : Nat} {call : CallEvent}
    (hget : calls[first]? = some call) (henter : call.kind = .enter)
    (hown : call.pid = finding.pid ∧ call.contextId = finding.contextId)
    (hcount : calls.length ≤ lib.sizeMax) :
    ∃ r, Halts (endPass lib finding calls call.callName) ⟨first, 0, none⟩ r ∧
      r.returned = traceEnd finding call.callName (calls.drop first) first 0 := by
  obtain ⟨hlt, rfl⟩ := List.getElem?_eq_some_iff.1 hget
  have hlength : (calls.take first ++ [calls[first]]).length = first + 1 := by
    rw [List.length_append, List.length_take, List.length_singleton, Nat.min_eq_left hlt.le]
  have hsplit : calls.take first ++ [calls[first]] ++ calls.drop (first + 1) = calls := by
    rw [List.append_assoc, List.singleton_append, ← List.drop_eq_getElem_cons hlt,
      List.take_append_drop]
  have hmine : ¬(calls[first].pid ≠ finding.pid ∨ calls[first].contextId ≠ finding.contextId ∨
      calls[first].callName ≠ calls[first].callName) := by
    simp [hown]
  rw [← hsplit] at hcount
  -- behind the selected `ENTER` the depth is one, where the lemma above begins
  obtain ⟨r, hrun, hr⟩ := endPass_halts finding calls[first].callName
    (calls.take first ++ [calls[first]]) (calls.drop (first + 1)) Nat.one_pos (by omega) hcount
  rw [hsplit, hlength] at hrun
  refine ⟨r, .next ?_ hrun, ?_⟩
  · rw [endPass, if_pos ⟨rfl, hlt⟩]
    simp only [hget]
    rw [hsplit] at hcount
    rw [if_neg hmine, if_pos henter, sizeIncrement_of_lt (Nat.lt_of_lt_of_le hlt hcount),
      sizeIncrement_of_lt (by omega)]
  · rw [hr, hlength, List.drop_eq_getElem_cons hlt, traceEnd, if_neg hmine, if_pos henter]

/-- The second loop returns at a record that it reads. -/
theorem traceEnd_range {rest : List CallEvent} {index depth last : Nat}
    (h : traceEnd finding callName rest index depth = some last) :
    index ≤ last ∧ last < index + rest.length := by
  induction rest generalizing index depth with
  | nil => cases h
  | cons call rest ih =>
    have hlater {depth' : Nat} (h : traceEnd finding callName rest (index + 1) depth' = some last) :
        index ≤ last ∧ last < index + (call :: rest).length := by
      have hrange := ih h
      rw [List.length_cons]
      omega
    rw [traceEnd] at h
    split at h
    · exact hlater h
    · split at h
      · exact hlater h
      · split at h
        · obtain rfl := Option.some.inj h
          exact ⟨Nat.le_refl _, by simp⟩
        · exact hlater h

end Runs

/-! ## The bounds -/

section Bounds

variable {model : ReportModel lib} {finding : Finding}

theorem TraceBoundsRun.unique {first last first' last' : Nat}
    (h : TraceBoundsRun model finding first last)
    (h' : TraceBoundsRun model finding first' last') : first = first' ∧ last = last' := by
  cases h with
  | unmatched hsite hbegin hfirst =>
    cases h' with
    | unmatched _ _ _ => exact ⟨rfl, rfl⟩
    | matched hsite' hbegin' hfirst' _ _ =>
      obtain rfl := Option.some.inj (hsite.symm.trans hsite')
      exact absurd (hbegin.unique hbegin' ▸ hfirst) hfirst'
  | matched hsite hbegin hfirst hcall hend =>
    cases h' with
    | unmatched hsite' hbegin' hfirst' =>
      obtain rfl := Option.some.inj (hsite.symm.trans hsite')
      exact absurd (hbegin'.unique hbegin ▸ hfirst') hfirst
    | matched hsite' hbegin' _ hcall' hend' =>
      obtain rfl := Option.some.inj (hsite.symm.trans hsite')
      obtain rfl := hbegin.unique hbegin'
      obtain rfl := Option.some.inj (hcall.symm.trans hcall')
      obtain rfl := hend.unique hend'
      exact ⟨rfl, rfl⟩

/-- An `ENTER` that matches is a record of the process and context of the finding. -/
theorem IsSiteEntry.own {site : SourceSite} {call : CallEvent}
    (h : IsSiteEntry site finding call) :
    call.pid = finding.pid ∧ call.contextId = finding.contextId :=
  own_of_letter (own_of_entry h)

/-- The function returns, with the bounds of `traceBounds`. -/
theorem traceBoundsRun_traceBounds {site : SourceSite}
    (hsite : model.siteAt finding.site = some site)
    (hcount : model.calls.items.length ≤ lib.sizeMax) :
    TraceBoundsRun model finding
      ((traceBounds model site finding).getD (lib.sizeMax, lib.sizeMax)).1
      ((traceBounds model site finding).getD (lib.sizeMax, lib.sizeMax)).2 := by
  have hstart : Selected site finding [] none 0 := ⟨rfl, fun call hcall => by cases hcall⟩
  obtain ⟨bestSequence, hselected⟩ := traceBegin_selected model.calls.items hstart
  obtain ⟨selected, hbegin, hfirst⟩ :=
    beginPass_halts site finding [] model.calls.items none 0 hcount
  rw [List.nil_append] at hselected hbegin
  rw [List.length_nil] at hselected hbegin hfirst
  rw [traceBounds]
  cases htrace : traceBegin site finding model.calls.items 0 none 0 with
  | none =>
    rw [htrace] at hfirst
    exact .unmatched hsite hbegin hfirst
  | some first =>
    rw [htrace] at hselected hfirst
    obtain ⟨call, hlatest, -⟩ := hselected
    have hlt : first < model.calls.items.length := (List.getElem?_eq_some_iff.1 hlatest.get).1
    have hlast : sizeDecrement lib model.calls.items.length = model.calls.items.length - 1 :=
      sizeDecrement_of_pos (Nat.zero_lt_of_lt hlt) hcount
    obtain ⟨counted, hend, hreturned⟩ :=
      endPass_halts_of_enter hlatest.get hlatest.entry.enter hlatest.entry.own hcount
    rw [Option.getD_some] at hfirst
    subst hfirst
    have hrun := TraceBoundsRun.matched hsite hbegin (by omega) hlatest.get hend
    rw [Option.bind_eq_bind, Option.bind_some, hlatest.get]
    rwa [hreturned, hlast] at hrun

/-- The function returns, and the bounds that it leaves are those of `traceBounds`. -/
theorem traceBoundsRun_iff {site : SourceSite} (hsite : model.siteAt finding.site = some site)
    (hcount : model.calls.items.length ≤ lib.sizeMax) {first last : Nat} :
    TraceBoundsRun model finding first last ↔
      (first, last) = (traceBounds model site finding).getD (lib.sizeMax, lib.sizeMax) := by
  have hrun := traceBoundsRun_traceBounds hsite hcount
  constructor
  · intro h
    obtain ⟨rfl, rfl⟩ := h.unique hrun
    rfl
  · intro h
    rwa [← h] at hrun

/-! ## The loops that print a trace -/

/-- From bounds within the table, or from `SIZE_MAX`, the loop reads call records only, and stops,
whichever records cannot be written. -/
theorem printPass_halts {calls : List CallEvent} {first last : Nat} (fails : Nat → Bool)
    (raised : Bool) (hcount : calls.length ≤ lib.sizeMax)
    (hbounds : first = lib.sizeMax ∨ last < calls.length) :
    ∃ r, Halts (printPass lib finding calls last fails) ⟨first, 0, raised⟩ r := by
  rcases hbounds with rfl | hlast
  · refine ⟨⟨lib.sizeMax, 0, raised⟩, .stop ?_⟩
    rw [printPass]
    exact if_neg fun h => h.1 rfl
  · have hindex {s : PrintState} (hguard : s.index ≤ last) :
        sizeIncrement lib s.index = s.index + 1 := sizeIncrement_of_lt (by omega)
    have hfault (s : PrintState) (_ : True) :
        printPass lib finding calls last fails s ≠ .fault := by
      rw [printPass]
      split
      · rename_i hguard
        have hlt : s.index < calls.length := by omega
        simp only [List.getElem?_eq_getElem hlt]
        split <;> exact nofun
      · exact nofun
    have hpass (s s' : PrintState) (_ : True)
        (hpass : printPass lib finding calls last fails s = .next s') :
        True ∧ last + 1 - s'.index < last + 1 - s.index := by
      rw [printPass] at hpass
      split at hpass
      · rename_i hguard
        have hlt : s.index < calls.length := by omega
        have hnext : s'.index = s.index + 1 := by
          simp only [List.getElem?_eq_getElem hlt] at hpass
          split at hpass <;> obtain rfl := Pass.next.inj hpass <;>
            exact sizeIncrement_of_lt (by omega)
        exact ⟨trivial, by omega⟩
      · cases hpass
    -- every pass comes closer to `last`
    obtain ⟨r, hrun, -⟩ :=
      exists_halts (fun s : PrintState => last + 1 - s.index) hfault hpass trivial
    exact ⟨r, hrun⟩

/-- Bounds with which a trace can be printed. -/
structure UsableBounds (model : ReportModel lib) (finding : Finding) (first last : Nat) :
    Prop where
  le : first ≤ last
  lt : last < model.calls.items.length
  enter : ∃ call, model.calls.items[first]? = some call ∧ call.kind = .enter ∧
    call.pid = finding.pid ∧ call.contextId = finding.contextId

/-- **Usable bounds.** For call records in any order, and a finding whose site is in the table,
`p101_report_trace_bounds` returns without counting the depth down at zero. It leaves `SIZE_MAX` in
both bounds exactly when no `ENTER` matches, and else the index of an `ENTER` of the finding's
process and context and the index of a record that is not before it. With these bounds the loops
that print the trace read call records only, and stop. -/
theorem traceBounds_usable (model : ReportModel lib) (finding : Finding) {site : SourceSite}
    (hsite : model.siteAt finding.site = some site)
    (hcount : model.calls.items.length ≤ lib.sizeMax) :
    ∃ first last, (∀ first' last', TraceBoundsRun model finding first' last' ↔
        first' = first ∧ last' = last) ∧
      ((first = lib.sizeMax ∧ last = lib.sizeMax) ↔
        ∀ call ∈ model.calls.items, ¬ IsSiteEntry site finding call) ∧
      ((first = lib.sizeMax ∧ last = lib.sizeMax) ∨ UsableBounds model finding first last) ∧
      ∀ (fails : Nat → Bool) (raised : Bool), ∃ r,
        Halts (printPass lib finding model.calls.items last fails) ⟨first, 0, raised⟩ r := by
  have hrun (first' last' : Nat) : TraceBoundsRun model finding first' last' ↔
      (first', last') = (traceBounds model site finding).getD (lib.sizeMax, lib.sizeMax) :=
    traceBoundsRun_iff hsite hcount
  -- no `ENTER` matches, or the latest one that does is selected
  rcases traceBounds_eq model site finding with
    ⟨hnone, hno⟩ | ⟨first, last, call, hbounds, hlatest, hlast⟩
  · refine ⟨lib.sizeMax, lib.sizeMax, ?_, ⟨fun _ => hno, fun _ => ⟨rfl, rfl⟩⟩,
      Or.inl ⟨rfl, rfl⟩, ?_⟩
    · intro first' last'
      rw [hrun, hnone, Option.getD_none, Prod.mk.injEq]
    · intro fails raised
      exact printPass_halts fails raised hcount (Or.inl rfl)
  · have hlt : first < model.calls.items.length := (List.getElem?_eq_some_iff.1 hlatest.get).1
    have husable : UsableBounds model finding first last := by
      have hrange : first ≤ last ∧ last < model.calls.items.length := by
        cases hend : traceEnd finding call.callName (model.calls.items.drop first) first 0 with
        | none =>
          rw [hend, Option.getD_none] at hlast
          omega
        | some exit =>
          have hexit := traceEnd_range hend
          rw [List.length_drop] at hexit
          rw [hend, Option.getD_some] at hlast
          omega
      exact ⟨hrange.1, hrange.2, call, hlatest.get, hlatest.entry.enter, hlatest.entry.own⟩
    refine ⟨first, last, ?_, ⟨?_, ?_⟩, Or.inr husable, ?_⟩
    · intro first' last'
      rw [hrun, hbounds, Option.getD_some, Prod.mk.injEq]
    · rintro ⟨rfl, -⟩
      omega
    · intro hno
      exact absurd hlatest.entry (hno call (List.mem_of_getElem? hlatest.get))
    · intro fails raised
      exact printPass_halts fails raised hcount (Or.inr husable.lt)

end Bounds

/-- An `EXIT` of a call that was not entered, and an `ENTER` of one that does not return. -/
def strayModel : ReportModel replayLib :=
  { callModel [
      callRecord .exit 1 1 (lit "walk"), callRecord .enter 1 1 (lit "walk"),
      callRecord .exit 2 1 (lit "walk")] with
    sites := ⟨[fixtureSite], 16⟩ }

theorem traceBounds_usable_stray :
    let finding : Finding := { pid := 1, contextId := 7, eventSequence := 1 }
    ∃ first last, (∀ first' last', TraceBoundsRun strayModel finding first' last' ↔
        first' = first ∧ last' = last) ∧
      ((first = replayLib.sizeMax ∧ last = replayLib.sizeMax) ↔
        ∀ call ∈ strayModel.calls.items, ¬ IsSiteEntry fixtureSite finding call) ∧
      ((first = replayLib.sizeMax ∧ last = replayLib.sizeMax) ∨
        UsableBounds strayModel finding first last) ∧
      ∀ (fails : Nat → Bool) (raised : Bool), ∃ r,
        Halts (printPass replayLib finding strayModel.calls.items last fails)
          ⟨first, 0, raised⟩ r :=
  traceBounds_usable strayModel _ rfl (by decide)

end P101Report
