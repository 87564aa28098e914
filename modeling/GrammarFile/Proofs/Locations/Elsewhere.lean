import GrammarFile.Proofs.Locations.Run
import GrammarFile.Proofs.Parsing.Locality

/-!
# A failure does not depend on where its tokens stand

A run sees no locations (`Rule.Erases`), no token behind the one where it ends (`run_before`), and,
where it passes over a token, nothing of what was looked for before (`run_withTried`). So a run that
fails before it has passed over all of some tokens fails in the same way wherever these tokens stand
(`run_elsewhere`).
-/

namespace GrammarFile

namespace Cursor

variable {c d : Cursor} {us vs more : List LocatedToken}

/-- Tokens behind those of a start may be counted among its own. -/
theorem before_start (us vs more : List LocatedToken) :
    (start (us ++ vs)).before more = (start us).before (vs ++ more) := by
  simp [before, start]

/-- Without locations, and what was looked for, a place is told by the tokens from there on. -/
theorem withTried_erase (h : c.rest = us ++ more) :
    c.erase.withTried [] = (start (us.map (·.erase))).before (more.map (·.erase)) := by
  simp [withTried, erase, before, start, h]

/-- A cursor in front of more tokens has that many more left. -/
theorem length_of_erase_eq_before (h : c.erase = d.before vs) :
    c.rest.length = d.rest.length + vs.length := by
  simpa [erase, before] using congrArg (·.rest.length) h

end Cursor

/-- What fails without locations fails with the same fault. -/
theorem erase_eq_failed {α : Type} {e : α → α} {o : Outcome α} {fault : Fault} {c : Cursor}
    (h : o.erase e = .failed fault c) : ∃ d, o = .failed fault d ∧ d.erase = c := by
  cases o with
  | ok x d => cases h
  | failed fault' d =>
    cases h
    exact ⟨d, rfl, rfl⟩

/-- What succeeds without locations succeeds. -/
theorem erase_eq_ok {α : Type} {e : α → α} {o : Outcome α} {x : α} {c : Cursor}
    (h : o.erase e = .ok x c) :
    ∃ y d, o = .ok y d ∧ d.erase = c := by
  cases o with
  | ok y d =>
    cases h
    exact ⟨y, d, rfl, rfl⟩
  | failed fault d => cases h

/-- The tokens that are left are as many of the last ones. -/
theorem eq_drop_of_suffix {us more vs : List LocatedToken} (h : vs <:+ us ++ more) {n : Nat}
    (hlength : vs.length = n + more.length) (hn : n ≤ us.length) :
    vs = us.drop (us.length - n) ++ more := by
  have hle : us.length - n ≤ us.length := Nat.sub_le _ _
  rw [← List.drop_append_of_le_length hle, List.suffix_iff_eq_drop.mp h]
  congr 1
  simp only [List.length_append] at hlength ⊢
  omega

namespace Rule

variable {s : Bool} {α : Type} {r : Rule s α} {e : α → α}

/-- A rule that applies applies at the same tokens with other locations too. -/
theorem exists_ok_of_erase_eq (he : r.Erases e) {c c' d : Cursor} {x : α} (hd : d.erase = c.erase)
    (hrun : r.run c = .ok x c') : ∃ y d', r.run d = .ok y d' ∧ d'.erase = c'.erase := by
  apply erase_eq_ok
  rw [← he d, hd, he c, hrun]
  rfl

/-- A run that passes over a token comes to what it comes to on its tokens alone. -/
theorem run_start_before (hr : r.shallow) (he : r.Erases e) {c : Cursor} {us more : List LocatedToken}
    (hc : c.rest = us ++ more) (hsees : c.sees r.first) :
    r.run ((Cursor.start (us.map (·.erase))).before (more.map (·.erase))) = (r.run c).erase e := by
  have hsees' : c.erase.sees r.first := (Cursor.sees_erase c r.first).symm ▸ hsees
  rw [← Cursor.withTried_erase hc, run_withTried hr hsees', he c]

/-- **A run that fails fails in the same way elsewhere**: on the same tokens with other locations, after
other tokens and before other ones, unless it has passed over all of its own. -/
theorem run_elsewhere (hr : r.shallow) (he : r.Erases e) {ts us more : List LocatedToken}
    {c c' d : Cursor}
    {fault : Fault} (htokens : us.map (·.token) = ts.map (·.token)) (hc : c.rest = ts)
    (hd : d.rest = us ++ more) (hsees : c.sees r.first) (hsees' : d.sees r.first)
    (hrun : r.run c = .failed fault c') (hc' : c'.rest ≠ []) :
    ∃ d', r.run d = .failed fault d' ∧ d'.rest = us.drop (us.length - c'.rest.length) ++ more := by
  have hsuffix : c'.rest <:+ ts := by
    have h := rest_suffix_of_run r c
    rwa [hrun, hc] at h
  -- the last token stands apart, since the run has not passed over it
  obtain ⟨left, u, hleft⟩ := c'.rest.eq_nil_or_concat'.resolve_left hc'
  obtain ⟨init, rfl⟩ : ∃ init, ts = init ++ [u] := by
    obtain ⟨passed, rfl⟩ := hsuffix
    exact ⟨passed ++ left, by rw [hleft, List.append_assoc]⟩
  have hhere : r.run ((Cursor.start (init.map (·.erase))).before [u.erase]) = .failed fault c'.erase := by
    have h := run_start_before hr he hc hsees
    rwa [hrun] at h
  have hthere : r.run ((Cursor.start (init.map (·.erase))).before (u.erase :: more.map (·.erase))) =
      (r.run d).erase e := by
    have h := run_start_before hr he hd hsees'
    rwa [map_erase_eq htokens, List.map_append, Cursor.before_start] at h
  generalize Cursor.start (init.map (·.erase)) = start at hhere hthere
  have hend : [u.erase] <:+ (r.run (start.before [u.erase])).cursor.rest := by
    rw [hhere]
    exact ⟨left.map (·.erase), by simp [Outcome.cursor, Cursor.erase, hleft]⟩
  have hnext : SameNext [u.erase] (u.erase :: more.map (·.erase)) := rfl
  obtain ⟨o, ho, ho'⟩ := run_before r hnext start hend
  rw [hhere] at ho
  rw [hthere] at ho'
  cases o with
  | ok x c₀ => cases ho
  | failed fault' c₀ =>
    obtain ⟨rfl, hc₀⟩ := Outcome.failed.inj ho
    obtain ⟨d', hd', herase⟩ := erase_eq_failed ho'
    refine ⟨d', hd', ?_⟩
    have hleft' : d'.rest <:+ us ++ more := by
      have h := rest_suffix_of_run r d
      rwa [hd', hd] at h
    have hcount := Cursor.length_of_erase_eq_before hc₀
    have hcount' := Cursor.length_of_erase_eq_before herase
    rw [List.length_cons, List.length_map] at hcount'
    apply eq_drop_of_suffix hleft'
    · rw [hcount', hcount, List.length_singleton]
      omega
    · have hlength : us.length = (init ++ [u]).length := by simpa using congrArg List.length htokens
      rw [hlength]
      exact hsuffix.length_le

end Rule

end GrammarFile
