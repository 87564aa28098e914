import GrammarFile.Proofs.Lexing.Partition
import GrammarFile.Proofs.Parsing.Attempt
import GrammarFile.Proofs.Parsing.File
import GrammarFile.Proofs.Parsing.FirstToken

/-!
# Every token is blamed once at most

The errors of a reading are in the order of the file (`parse_errors_in_order`): first those that blame a
token, each of them another and a later one, and then those that blame the end of the input, of which
there are two at most, one for the prolog and one for the definition.

`Blames` says so of some errors and of the tokens that are still free to be blamed. Those are the tokens
from the cursor on, or from behind it on: after an error the reading may go on at the very token that it
has just blamed. It does so only where the next attempt is sure to pass over that token
(`Cursor.GoesOnAfter`), so the token is not blamed again (`Ready`).
-/

namespace GrammarFile

/-- The token that an error blames, unless that is the end of the input. -/
def ParseError.blamed? (e : ParseError) : Option LocatedToken :=
  e.found.map (⟨·, e.range⟩)

/-- The token that is blamed is the next one. -/
theorem ParseContext.blamed?_blame (context : ParseContext) (fault : Fault) (c : Cursor) :
    (context.blame fault c).blamed? = c.rest.head? := by
  unfold blame ParseError.blamed?
  cases c.rest <;> rfl

/-- Whether some errors blame tokens of `ts` in order, each once at most and none of `free`, which are
the last tokens of `ts`, and after that the end of the input, `atEnd` times. -/
inductive Blames (ts : List LocatedToken) :
    List ParseError → (free : List LocatedToken) → (atEnd : Nat) → Prop where
  | none : Blames ts [] ts 0
  | pass {errors : List ParseError} {free free' : List LocatedToken} {n : Nat} :
      Blames ts errors free n → free' <:+ free → Blames ts errors free' n
  | token {errors : List ParseError} {t : LocatedToken} {free : List LocatedToken} {e : ParseError} :
      Blames ts errors (t :: free) 0 → e.blamed? = some t → Blames ts (errors ++ [e]) free 0
  | atEnd {errors : List ParseError} {n : Nat} {e : ParseError} :
      Blames ts errors [] n → e.blamed? = Option.none → Blames ts (errors ++ [e]) [] (n + 1)

namespace Blames

variable {ts free : List LocatedToken} {errors : List ParseError} {n : Nat}

/-- The errors come in two parts, those at tokens and those at the end of the input. -/
theorem split (h : Blames ts errors free n) :
    ∃ placed atEnd passed, ∃ tokens : List LocatedToken, errors = placed ++ atEnd ∧ ts = passed ++ free ∧
      tokens.Sublist passed ∧ placed.map (·.blamed?) = tokens.map some ∧
      (∀ e ∈ atEnd, e.blamed? = Option.none) ∧ atEnd.length = n := by
  induction h with
  | none => exact ⟨[], [], [], [], rfl, rfl, .slnil, rfl, nofun, rfl⟩
  | pass _ hfree ih =>
    obtain ⟨placed, atEnd, passed, tokens, rfl, rfl, htokens, hplaced, hend, hlength⟩ := ih
    obtain ⟨more, rfl⟩ := hfree
    exact ⟨placed, atEnd, passed ++ more, tokens, rfl, (List.append_assoc ..).symm,
      htokens.trans (List.sublist_append_left passed more), hplaced, hend, hlength⟩
  | @token _ t free e _ he ih =>
    obtain ⟨placed, atEnd, passed, tokens, rfl, rfl, htokens, hplaced, -, hlength⟩ := ih
    obtain rfl : atEnd = [] := List.eq_nil_of_length_eq_zero hlength
    refine ⟨placed ++ [e], [], passed ++ [t], tokens ++ [t], by simp, by simp, ?_, ?_, nofun, rfl⟩
    · exact htokens.append (List.Sublist.refl [t])
    · simp [hplaced, he]
  | @atEnd _ n e _ he ih =>
    obtain ⟨placed, atEnd, passed, tokens, rfl, rfl, htokens, hplaced, hend, rfl⟩ := ih
    refine ⟨placed, atEnd ++ [e], passed, tokens, List.append_assoc .., rfl, htokens, hplaced,
      ?_, by simp⟩
    intro e' he'
    rcases List.mem_append.mp he' with he' | he'
    · exact hend e' he'
    · rwa [List.mem_singleton.mp he']

/-- Errors at the end of the input leave no token. -/
theorem report_atEnd {found : Findings} {c : Cursor} (h : Blames ts found.errors c.rest n)
    (hc : c.rest = []) (context : ParseContext) (fault : Fault) :
    Blames ts (context.report found fault c).errors [] (n + 1) := by
  rw [hc] at h
  refine .atEnd h ?_
  rw [context.blamed?_blame, hc, List.head?_nil]

/-- One more error blames the next token or the end of the input. -/
theorem report {found : Findings} {c : Cursor} (h : Blames ts found.errors c.rest 0)
    (context : ParseContext) (fault : Fault) :
    ∃ n, Blames ts (context.report found fault c).errors c.rest.tail n ∧
      (n = 0 ∨ n = 1 ∧ c.rest = []) := by
  cases hrest : c.rest with
  | nil => exact ⟨1, h.report_atEnd hrest context fault, .inr ⟨rfl, rfl⟩⟩
  | cons t rest =>
    rw [hrest] at h
    refine ⟨0, .token h ?_, .inl rfl⟩
    rw [context.blamed?_blame, hrest, List.head?_cons]

end Blames

/-! ### Going on after an error -/

/-- Skipping leaves some of the last tokens. -/
theorem skipTo_suffix (isStart : List LocatedToken → Bool) (ts : List LocatedToken) :
    skipTo isStart ts <:+ ts := by
  induction ts with
  | nil => exact List.suffix_rfl
  | cons t rest ih =>
    rw [skipTo]
    split
    · exact List.suffix_rfl
    · exact ih.trans (List.suffix_cons t rest)

namespace Cursor

/-- Whether a reading that has blamed the token at `c` goes on behind it, or at it where the next
attempt is sure to pass over a token of its kind. -/
def GoesOnAfter (sure : List TokenKind) (next c : Cursor) : Prop :=
  next.rest <:+ c.rest.tail ∨ next.rest = c.rest ∧ c.sees sure

/-- At the end of the input a reading does not go on. -/
theorem GoesOnAfter.eq_nil {sure : List TokenKind} {next c : Cursor} (h : next.GoesOnAfter sure c)
    (hc : c.rest = []) : next.rest = [] := by
  rcases h with h | ⟨h, -⟩
  · rwa [hc, List.tail_nil, List.suffix_nil] at h
  · rw [h, hc]

variable {c start : Cursor} {isStart : List LocatedToken → Bool}

/-- An attempt that has not moved is passed over. -/
theorem resume_suffix_tail (h : c.rest.length = start.rest.length) :
    (c.resume start isStart).rest <:+ c.rest.tail := by
  rw [resume, if_pos h]
  exact skipTo_suffix isStart c.rest.tail

/-- A reading goes on behind the token that it has blamed, or at it if it can start there. -/
theorem resume_cases (c start : Cursor) (isStart : List LocatedToken → Bool) :
    (c.resume start isStart).rest <:+ c.rest.tail ∨
      (c.resume start isStart).rest = c.rest ∧ isStart c.rest := by
  by_cases hlength : c.rest.length = start.rest.length
  · exact .inl (resume_suffix_tail hlength)
  rw [resume, if_neg hlength]
  cases hrest : c.rest with
  | nil => exact .inl List.suffix_rfl
  | cons t rest =>
    rw [skipTo]
    split
    · rename_i hstart
      exact .inr ⟨rfl, hstart⟩
    · exact .inl (skipTo_suffix isStart rest)

/-- After an error a reading goes on where it was or later. -/
theorem resume_suffix (c start : Cursor) (isStart : List LocatedToken → Bool) :
    (c.resume start isStart).rest <:+ c.rest := by
  rcases resume_cases c start isStart with h | ⟨h, -⟩
  · exact h.trans (List.tail_suffix c.rest)
  · exact h ▸ List.suffix_rfl

/-- Where a reading goes on after an attempt there is at least one token less. -/
theorem length_resume_lt (hc : c.rest <:+ start.rest) (hne : start.rest ≠ []) :
    (c.resume start isStart).rest.length < start.rest.length := by
  have hpos : 0 < start.rest.length := List.length_pos_iff.mpr hne
  have hle := hc.length_le
  by_cases hlength : c.rest.length = start.rest.length
  · have htail := (@resume_suffix_tail _ _ isStart hlength).length_le
    rw [List.length_tail] at htail
    omega
  · rw [resume, if_neg hlength]
    exact Nat.lt_of_le_of_lt (skipTo_suffix isStart c.rest).length_le (Nat.lt_of_le_of_ne hle hlength)

/-- Passing a mark leaves some of the last tokens. -/
theorem pass_suffix (c : Cursor) (m : Mark) : (c.pass m).rest <:+ c.rest := by
  unfold pass
  split
  · exact List.tail_suffix c.rest
  · exact List.suffix_rfl

/-- After an error nothing has been looked for yet. -/
theorem tried_pass_resume (c start : Cursor) (isStart : List LocatedToken → Bool) (m : Mark) :
    ((c.resume start isStart).pass m).tried = [] := by
  rw [pass]
  split <;> rfl

/-- Passing a mark leaves no more tokens. -/
theorem length_pass_resume_lt (hc : c.rest <:+ start.rest) (hne : start.rest ≠ []) (m : Mark) :
    ((c.resume start isStart).pass m).rest.length < start.rest.length :=
  Nat.lt_of_le_of_lt (pass_suffix _ m).length_le (length_resume_lt hc hne)

/-- Past the mark that it may go on at, a reading goes on behind the token that it has blamed, or at it
if it can start there otherwise. -/
theorem pass_resume_cases (c start : Cursor) (isStart : List LocatedToken → Bool) (m : Mark) :
    ((c.resume start isStart).pass m).rest <:+ c.rest.tail ∨
      ((c.resume start isStart).pass m).rest = c.rest ∧ isStart c.rest ∧ c.sees [.mark m] = false := by
  rcases resume_cases c start isStart with h | ⟨h, hstart⟩
  · exact .inl ((pass_suffix _ m).trans h)
  have hsees : (c.resume start isStart).sees [.mark m] = c.sees [.mark m] := by rw [sees, sees, h]
  rw [pass, hsees]
  cases hm : c.sees [.mark m] with
  | true => exact .inl (h ▸ List.suffix_rfl)
  | false => exact .inr ⟨h, hstart, rfl⟩

/-- Behind a failure in the prolog the reading goes on. -/
theorem resumeProlog_goesOn (c start : Cursor) : (c.resumeProlog start).GoesOnAfter prologStarts c :=
  resume_cases c start _

/-- Behind a failure in a scanner state the reading goes on. -/
theorem resumeState_goesOn (c start : Cursor) :
    (c.resumeState start).GoesOnAfter [.mark .scanner, .mark .percentPercent] c := by
  rcases pass_resume_cases c start _ .rightBrace with h | ⟨h, hstart, hbrace⟩
  · exact .inl h
  · refine .inr ⟨h, ?_⟩
    have hsees : c.sees ([.mark .rightBrace] ++ [.mark .scanner, .mark .percentPercent]) := hstart
    rwa [sees_append, hbrace, Bool.false_or] at hsees

/-- Behind a failure in a production the reading goes on. -/
theorem resumeProduction_goesOn (c start : Cursor) :
    (c.resumeProduction start).GoesOnAfter [.identifier] c := by
  rcases pass_resume_cases c start _ .semicolon with h | ⟨h, hstart, hsemicolon⟩
  · exact .inl h
  · refine .inr ⟨h, ?_⟩
    have hsees : headIn [.mark .semicolon] c.rest = false := hsemicolon
    rw [hsees, Bool.false_or] at hstart
    unfold startsProduction at hstart
    unfold sees
    split at hstart
    · rename_i hrest
      rw [hrest]
      simp_all
    · cases hstart

end Cursor

/-! ### The prolog -/

variable {context : ParseContext} {ts : List LocatedToken}

/-- Whether the errors of a reading at `c` leave the tokens from there on free, or those behind the next
one if that is of a kind that the next attempt is sure to pass over. -/
def Ready (ts : List LocatedToken) (sure : List TokenKind) (errors : List ParseError) (c : Cursor)
    (n : Nat) : Prop :=
  Blames ts errors c.rest n ∨ c.sees sure ∧ Blames ts errors c.rest.tail n

namespace Ready

variable {sure : List TokenKind} {errors : List ParseError} {c next : Cursor} {n : Nat}

/-- The errors leave everything free that the next attempt can be stopped at. -/
theorem attempt {α : Type} {r : Rule true α} {d : Cursor} (h : Ready ts sure errors c n) (hr : r.shallow)
    (hsure : c.sees sure → c.sees r.first) (hd : d.rest = c.rest) :
    Blames ts errors (r.run d).cursor.rest n := by
  rcases h with h | ⟨hsees, h⟩
  · exact h.pass (hd ▸ Rule.rest_suffix_of_run r d)
  · have hfirst : d.sees r.first := by
      rw [Cursor.sees, hd]
      exact hsure hsees
    exact h.pass (hd ▸ Rule.rest_suffix_tail_of_run hr hfirst)

/-- Behind a blamed token the reading is ready for the next attempt. -/
theorem of_goesOn (h : Blames ts errors c.rest.tail n) (hnext : next.GoesOnAfter sure c) :
    Ready ts sure errors next n := by
  rcases hnext with hnext | ⟨hnext, hsees⟩
  · exact .inl (h.pass hnext)
  · refine .inr ⟨?_, hnext ▸ h⟩
    rw [Cursor.sees, hnext]
    exact hsees

/-- What is ready at a token leaves those behind it free. -/
theorem blames_tail (h : Ready ts sure errors c n) : Blames ts errors c.rest.tail n :=
  h.elim (·.pass (List.tail_suffix c.rest)) (·.2)

end Ready

/-- The kinds of the tokens that the loop over the prolog is sure to pass over or to end at. -/
def prologSure (allowed : Bool) : List TokenKind :=
  [.mark .percentPercent] ++ (prologItem allowed).first

/-- After a failed part of the prolog the next attempt is sure to pass over a token that was blamed. -/
theorem goesOn_of_prologItem {allowed : Bool} {c c' : Cursor} {fault : Fault}
    (h : (prologItem allowed).run (c.miss [.mark .percentPercent]) = .failed fault c') :
    (if c.sees [.mark .scanner] then c'.resumeState c else c'.resumeProlog c).GoesOnAfter
      (prologSure allowed) c' := by
  split
  · refine (c'.resumeState_goesOn c).imp_right (And.imp_right fun hsees => Cursor.sees_mono hsees ?_)
    cases allowed <;> decide
  rename_i hscanner
  cases allowed with
  | true =>
    refine (c'.resumeProlog_goesOn c).imp_right (And.imp_right fun hsees => Cursor.sees_mono hsees ?_)
    decide
  | false =>
    -- a state is asked for and none starts here, so the attempt has not moved
    obtain ⟨left, hrun⟩ := Rule.failed_of_not_sees (prologItem false)
      (show (c.miss [.mark .percentPercent]).sees (prologItem false).first = false from
        Bool.eq_false_iff.mpr hscanner)
    rw [hrun] at h
    cases h
    exact .inl (Cursor.resume_suffix_tail rfl)

/-- After a failed part of the prolog there is at least one token less. -/
theorem length_lt_of_prologItem {allowed : Bool} {c c' : Cursor} {fault : Fault}
    (h : (prologItem allowed).run (c.miss [.mark .percentPercent]) = .failed fault c')
    (hne : c.rest ≠ []) :
    (if c.sees [.mark .scanner] then c'.resumeState c else c'.resumeProlog c).rest.length <
      c.rest.length := by
  have hmoved := Rule.rest_suffix_of_run (prologItem allowed) (c.miss [.mark .percentPercent])
  rw [h] at hmoved
  split
  · exact Cursor.length_pass_resume_lt hmoved hne .rightBrace
  · exact Cursor.length_resume_lt hmoved hne

/-- The loop over the prolog blames each token once at most, and stops at the end or at `%%` unless it
is stopped before. -/
theorem blames_prologItems {ahead : List LocatedToken} {allowed : Bool} {found : Findings} {c : Cursor}
    {n : Nat} (hahead : c.rest.length ≤ ahead.length)
    (h : Ready ts (prologSure allowed) found.errors c n) (hn : n = 0 ∨ n = 1 ∧ c.rest = []) :
    let r := prologItems context ahead allowed found c
    ∃ n, Blames ts r.found.errors r.cursor.rest.tail n ∧ (n = 0 ∨ n = 1 ∧ r.cursor.rest = []) ∧
      (r.found.stopped = false → r.cursor.rest = [] ∨ r.cursor.sees [.mark .percentPercent]) := by
  induction ahead generalizing allowed found c n with
  | nil =>
    have hnil : c.rest = [] := List.eq_nil_of_length_eq_zero (Nat.le_zero.mp hahead)
    exact ⟨n, h.blames_tail, hn, fun _ => .inl hnil⟩
  | cons t ahead ih =>
    rw [prologItems]
    split
    case isTrue hends =>
      refine ⟨n, h.blames_tail, hn, fun hrunning => ?_⟩
      rw [hrunning, Bool.false_or, Bool.or_eq_true, List.isEmpty_iff] at hends
      exact hends
    case isFalse hgoes =>
      rw [Bool.or_eq_true, Bool.or_eq_true, not_or, not_or, List.isEmpty_iff] at hgoes
      obtain ⟨⟨-, hne⟩, hpercent⟩ := hgoes
      obtain rfl : n = 0 := hn.resolve_right fun hn => hne hn.2
      have hshallow : (prologItem allowed).shallow := by cases allowed <;> rfl
      have hsure : c.sees (prologSure allowed) → c.sees (prologItem allowed).first := by
        intro hsees
        rwa [prologSure, Cursor.sees_append, Bool.eq_false_iff.mpr hpercent, Bool.false_or] at hsees
      have hattempt := h.attempt (d := c.miss [.mark .percentPercent]) hshallow hsure rfl
      cases hrun : (prologItem allowed).run (c.miss [.mark .percentPercent]) with
      | ok item c' =>
        have hlt : c'.rest.length ≤ ahead.length :=
          Nat.lt_succ_iff.mp (Nat.lt_of_lt_of_le (Rule.length_lt_of_run hrun) hahead)
        rw [hrun] at hattempt
        cases item with
        | declaration d => exact ih hlt (.inl hattempt) (.inl rfl)
        | state s => exact ih hlt (.inl hattempt) (.inl rfl)
      | failed fault c' =>
        rw [hrun] at hattempt
        obtain ⟨n, hblames, hn⟩ := hattempt.report context fault
        have hgoes := goesOn_of_prologItem hrun
        have hlt := length_lt_of_prologItem hrun hne
        refine ih (Nat.lt_succ_iff.mp (Nat.lt_of_lt_of_le hlt hahead)) (.of_goesOn hblames hgoes) ?_
        exact hn.imp_right (And.imp_right hgoes.eq_nil)

/-- Reading the start declaration blames one token at most, and where the reading stays at that token
the loop over the prolog is sure to pass over it. -/
theorem ready_startDeclaration (context : ParseContext) (c : Cursor) :
    let r := startDeclaration context c
    ∃ n, Ready c.rest (prologSure true) r.found.errors r.cursor n ∧
      (n = 0 ∨ n = 1 ∧ r.cursor.rest = []) := by
  have hmoved := Rule.rest_suffix_of_run Rules.startDeclaration c
  unfold startDeclaration
  cases hrun : Rules.startDeclaration.run c with
  | ok start c' =>
    rw [hrun] at hmoved
    exact ⟨0, .inl (.pass .none hmoved), .inl rfl⟩
  | failed fault c' =>
    rw [hrun] at hmoved
    have hnone : Blames c.rest Findings.none.errors c'.rest 0 := .pass .none hmoved
    obtain ⟨n, hblames, hn⟩ := hnone.report context fault
    have hgoes : (if c'.sees prologStarts then c'.withTried [] else c'.resumeProlog c).GoesOnAfter
        (prologSure true) c' := by
      have hsub : ∀ k ∈ prologStarts, k ∈ prologSure true := by decide
      split
      · rename_i hsees
        exact .inr ⟨rfl, Cursor.sees_mono hsees hsub⟩
      · exact (c'.resumeProlog_goesOn c).imp_right (And.imp_right fun hsees =>
          Cursor.sees_mono hsees hsub)
    exact ⟨n, .of_goesOn hblames hgoes, hn.imp_right (And.imp_right hgoes.eq_nil)⟩

/-- The prolog blames each token once at most, and ends at the end of the input or at `%%` unless it is
stopped before. -/
theorem blames_prolog (context : ParseContext) (c : Cursor) :
    let r := prolog context c
    ∃ n, Blames c.rest r.found.errors r.cursor.rest.tail n ∧ (n = 0 ∨ n = 1 ∧ r.cursor.rest = []) ∧
      (r.found.stopped = false → r.cursor.rest = [] ∨ r.cursor.sees [.mark .percentPercent]) := by
  obtain ⟨n, hready, hn⟩ := ready_startDeclaration context c
  exact blames_prologItems (Nat.le_refl _) hready hn

/-! ### The definition -/

/-- After an attempt at a production that is not the last there is at least one token less. -/
theorem length_productionAttempt_lt {found : Findings} {c : Cursor}
    (h : (productionAttempt context found c).isLast = false) :
    (productionAttempt context found c).cursor.rest.length < c.rest.length := by
  have hmoved := Rule.rest_suffix_of_run (Rules.production maxNesting) c
  unfold productionAttempt at h ⊢
  cases hrun : (Rules.production maxNesting).run c with
  | ok p c' => exact Rule.length_lt_of_run hrun
  | failed fault c' =>
    rw [hrun] at hmoved
    simp only [hrun, Reading.isLast, Bool.or_eq_false_iff, List.isEmpty_eq_false_iff] at h ⊢
    obtain ⟨hrunning, hnext⟩ := h
    rw [hrunning, if_neg Bool.false_ne_true] at hnext ⊢
    have hne : c.rest ≠ [] := by
      intro hnil
      have hc' : c'.rest = [] := List.suffix_nil.mp (hnil ▸ hmoved)
      exact hnext ((c'.resumeProduction_goesOn c).eq_nil hc')
    exact Cursor.length_pass_resume_lt hmoved hne .semicolon

/-- One attempt at a production blames one token at most, and where there is another attempt it is sure
to pass over that token. -/
theorem blames_productionAttempt {found : Findings} {c : Cursor}
    (h : Ready ts [.identifier] found.errors c 0) :
    let r := productionAttempt context found c
    (∃ free n, Blames ts r.found.errors free n ∧ n ≤ 1) ∧
      (r.isLast = false → Ready ts [.identifier] r.found.errors r.cursor 0) := by
  have hattempt : Blames ts found.errors ((Rules.production maxNesting).run c).cursor.rest 0 :=
    h.attempt rfl id rfl
  unfold productionAttempt
  cases hrun : (Rules.production maxNesting).run c with
  | ok p c' =>
    rw [hrun] at hattempt
    exact ⟨⟨_, 0, hattempt, Nat.zero_le 1⟩, fun _ => .inl hattempt⟩
  | failed fault c' =>
    rw [hrun] at hattempt
    obtain ⟨n, hblames, hn⟩ := hattempt.report context fault
    refine ⟨⟨_, n, hblames, by omega⟩, fun hlast => ?_⟩
    have hgoes := c'.resumeProduction_goesOn c
    rw [Reading.isLast, Bool.or_eq_false_iff] at hlast
    obtain ⟨hrunning, hnext⟩ := hlast
    dsimp only at hrunning hnext ⊢
    rw [hrunning, if_neg Bool.false_ne_true] at hnext ⊢
    rcases hn with rfl | ⟨-, hnil⟩
    · exact .of_goesOn hblames hgoes
    · rw [hgoes.eq_nil hnil] at hnext
      cases hnext

/-- The loop over the productions blames each token once at most, and the end of the input too. -/
theorem blames_productions {ahead : List LocatedToken} {found : Findings} {c : Cursor}
    (h : Ready ts [.identifier] found.errors c 0) :
    ∃ free n, Blames ts (productions context ahead found c).found.errors free n ∧ n ≤ 1 := by
  induction ahead generalizing found c with
  | nil =>
    rw [productions_nil]
    exact (blames_productionAttempt h).1
  | cons t ahead ih =>
    have ⟨hfirst, hready⟩ := @blames_productionAttempt context _ _ _ h
    rw [productions_cons]
    cases hlast : (productionAttempt context found c).isLast with
    | true =>
      simp only [hlast, if_true]
      exact hfirst
    | false =>
      simp only [hlast, Bool.false_eq_true, if_false]
      exact ih (hready hlast)

/-- The definition blames each token once at most, and the end of the input once besides the prolog. -/
theorem blames_definition {found : Findings} {c : Cursor} {n : Nat}
    (h : Blames ts found.errors c.rest.tail n) (hn : n = 0 ∨ n = 1 ∧ c.rest = [])
    (hc : c.rest = [] ∨ c.sees [.mark .percentPercent]) :
    ∃ free n, Blames ts (definition context found c).found.errors free n ∧ n ≤ 2 := by
  unfold definition
  rcases hc with hnil | hpercent
  · obtain ⟨left, hrun⟩ := Rule.failed_of_not_sees (Rules.mark .percentPercent) (c := c)
      (by rw [Cursor.sees, hnil]; rfl)
    rw [hrun]
    have hrest : (c.withTried left).rest = [] := hnil
    refine ⟨[], n + 1, .report_atEnd ?_ hrest context _, by omega⟩
    rw [hrest]
    rwa [hnil] at h
  · have hmoved := Rule.rest_suffix_tail_of_run (r := Rules.mark .percentPercent) rfl hpercent
    obtain rfl : n = 0 := by
      refine hn.resolve_right fun hn => ?_
      rw [Cursor.sees, hn.2] at hpercent
      cases hpercent
    cases hrun : (Rules.mark .percentPercent).run c with
    | ok percent c' =>
      rw [hrun] at hmoved
      obtain ⟨free, n, hblames, hn⟩ := @blames_productions context _ c'.rest _ _ (.inl (h.pass hmoved))
      exact ⟨free, n, hblames, Nat.le_succ_of_le hn⟩
    | failed fault c' =>
      rw [hrun] at hmoved
      obtain ⟨n, hblames, hn⟩ := (h.pass hmoved).report context fault
      exact ⟨_, n, hblames, by omega⟩

/-! ### A whole file -/

/-- **The errors of a file blame its tokens in order**, each once at most, and then the end of the input
twice at most. -/
theorem blames_of_parseTokens {tokens : List LocatedToken} {errors : List ParseError}
    (h : parseTokens context tokens = .error errors) :
    ∃ free n, Blames tokens errors free n ∧ n ≤ 2 := by
  obtain ⟨n, hprolog, hn, hends⟩ := blames_prolog context (.start tokens)
  rw [eq_of_parseTokens_eq_error context h, definitionAfter]
  split
  · exact ⟨_, n, hprolog, by omega⟩
  · rename_i hrunning
    exact blames_definition hprolog hn (hends (Bool.eq_false_iff.mpr hrunning))

/-! ### From the source text -/

/-- Errors that blame tokens have their ranges. -/
theorem map_range_of_map_blamed? {placed : List ParseError} {blamed : List LocatedToken}
    (h : placed.map (·.blamed?) = blamed.map some) : placed.map (·.range) = blamed.map (·.range) := by
  induction placed generalizing blamed with
  | nil =>
    rw [List.map_nil, eq_comm, List.map_eq_nil_iff] at h
    rw [h, List.map_nil, List.map_nil]
  | cons e placed ih =>
    cases blamed with
    | nil => cases h
    | cons t blamed =>
      rw [List.map_cons, List.map_cons, List.cons.injEq, ParseError.blamed?, Option.map_eq_some_iff] at h
      obtain ⟨⟨_, -, rfl⟩, h⟩ := h
      rw [List.map_cons, List.map_cons, ih h]

/-- **The errors of a source are in the order of the file and blame each token once at most.** Those
that blame a token come first and at increasing byte offsets. Those that blame the end of the input come
last, and there are two of them at most. -/
theorem parse_errors_in_order {source : String} {lexemes : List Lexeme} (hlex : lex source = .ok lexemes)
    {options : ParserOptions} {errors : List ParseError}
    (h : parse source options = .error (.parse errors)) :
    ∃ placed atEnd, errors = placed ++ atEnd ∧
      (∃ blamed : List LocatedToken, blamed.Sublist (locate (.ofSource source) lexemes) ∧
        placed.map (·.blamed?) = blamed.map some) ∧
      placed.Pairwise (·.range.span.start < ·.range.span.start) ∧
      (∀ e ∈ atEnd, e.found = none) ∧ atEnd.length ≤ 2 ∧ errors.length ≤ lexemes.length + 2 := by
  obtain ⟨free, n, hblames, hn⟩ := blames_of_parseTokens ((parse_eq_error_of_lex hlex).mp h)
  obtain ⟨placed, atEnd, passed, blamed, rfl, htokens, hblamed, hplaced, hend, rfl⟩ := hblames.split
  have hsublist : blamed.Sublist (locate (.ofSource source) lexemes) := by
    rw [htokens]
    exact hblamed.trans (List.sublist_append_left passed free)
  have hlength : placed.length = blamed.length := by simpa using congrArg List.length hplaced
  refine ⟨placed, atEnd, rfl, ⟨blamed, hsublist, hplaced⟩, ?_, fun e he => ?_, hn, ?_⟩
  · have hstarts :
      (locate (.ofSource source) lexemes).Pairwise (·.range.span.start < ·.range.span.start) :=
      List.pairwise_map.mpr (pairwise_start_of_lex hlex)
    have hranges : (placed.map (·.range)).Pairwise (·.span.start < ·.span.start) := by
      rw [map_range_of_map_blamed? hplaced]
      exact List.pairwise_map.mpr (hstarts.sublist hsublist)
    rwa [List.pairwise_map] at hranges
  · simpa [ParseError.blamed?] using hend e he
  · have hle := hsublist.length_le
    rw [locate, List.length_map] at hle
    rw [List.length_append]
    omega

/-- The reading goes on at a keyword that it has blamed, and does not blame it again. Then it blames the
end of the input twice. -/
theorem parse_errors_in_order_missing_name :
    ∃ lexemes errors, lex "%start %title" = .ok lexemes ∧
      parse "%start %title" .default = .error (.parse errors) ∧ errors.length = 3 ∧
      ∃ placed atEnd, errors = placed ++ atEnd ∧
        (∃ blamed : List LocatedToken, blamed.Sublist (locate (.ofSource "%start %title") lexemes) ∧
          placed.map (·.blamed?) = blamed.map some) ∧
        placed.Pairwise (·.range.span.start < ·.range.span.start) ∧
        (∀ e ∈ atEnd, e.found = none) ∧ atEnd.length ≤ 2 ∧ errors.length ≤ lexemes.length + 2 := by
  have hlex : lex "%start %title" = .ok [⟨.mark .start, ⟨0, 6⟩⟩, ⟨.mark .title, ⟨7, 13⟩⟩] := by
    decide +kernel
  have hcount : (match parse "%start %title" .default with
      | .error e => e.parseErrors.length
      | .ok _ => 0) = 3 := by
    decide +kernel
  cases hparse : parse "%start %title" .default with
  | ok g =>
    rw [hparse] at hcount
    cases hcount
  | error e =>
    rw [hparse] at hcount
    cases e with
    | lexical e => cases hcount
    | parse errors => exact ⟨_, errors, hlex, rfl, hcount, parse_errors_in_order hlex hparse⟩

end GrammarFile
