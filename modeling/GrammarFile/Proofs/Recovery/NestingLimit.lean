import GrammarFile.Proofs.Indexed.Rounds
import GrammarFile.Proofs.Parsing.Depth
import GrammarFile.Proofs.Recovery.CorrectPrefix
import GrammarFile.Proofs.Recovery.Faults

/-!
# The nesting limit is exact

A bracket is refused just where as many are open around it as there may be (`OpensInside`). So a
source that the table derives at some nesting is parsed if none of its brackets stands inside as
many, and otherwise its first error is at the first one that does.

The open brackets are counted by number (`Place.depth`), and the count is the same after each attempt as
before it, however that has ended. So every attempt at a production starts from 0 (`Tape.AttemptAt`), and
what a nesting error is about are the brackets of its own attempt. In the prolog there is no such error.
-/

namespace GrammarFile

open Rule

variable {s t : Bool} {α β : Type}

/-- Whether the token of a number opens a bracket, inside of some number of brackets that are open
there. -/
def OpensInside (tokens : List Token) (p n : Nat) : Prop :=
  (∃ t, tokens[p]? = some t ∧ t.kind ∈ Rules.openingBrackets) ∧ (openBrackets (tokens.take p)).length = n

/-! ### Where a bracket is refused -/

/-- Among tokens that climb so many levels no bracket stands inside as many. -/
theorem Climbs.lt_of_opensInside {levels p n : Nat} {us : List LocatedToken} (h : Climbs levels us)
    {tokens : List Token} (hus : us.map (·.token) <+: tokens) (hp : p < us.length)
    (hopens : OpensInside tokens p n) : n < levels := by
  obtain ⟨rest, rfl⟩ := hus
  obtain ⟨⟨t, ht, hkind⟩, rfl⟩ := hopens
  rw [List.getElem?_append_left (by rwa [List.length_map]), List.getElem?_map,
    List.getElem?_eq_getElem hp,
    Option.map_some, Option.some.injEq] at ht
  rw [List.take_append_of_le_length (by rw [List.length_map]; exact Nat.le_of_lt hp), ← List.map_take]
  obtain ⟨kind, -, hleft⟩ := List.mem_map.mp hkind
  have hopened : (bracketsAfterAll [] (us.take (p + 1))).length =
      (openBrackets ((us.take p).map (·.token))).length + 1 := by
    rw [← List.take_append_getElem hp, bracketsAfterAll_append, bracketsAfterAll_cons, ht,
      bracketsAfter_left _ hleft.symm]
    rfl
  have hclimbs := h (us.take (p + 1)) (List.take_prefix _ _) []
  rw [hopened, List.length_nil, Nat.zero_add] at hclimbs
  exact hclimbs

/-- **A run refuses the first bracket inside as many as there may be.** -/
theorem Confined.opensInside {r : Rule s α} (h : Confined maxNesting r) {c c' : Cursor} {limit : Nat}
    (hrun : r.run c = .failed (.tooDeep limit) c') :
    limit = maxNesting ∧ ∃ p, c.rest.length = p + c'.rest.length ∧ c'.rest = c.rest.drop p ∧
      OpensInside (c.rest.map (·.token)) p maxNesting ∧
      ∀ q < p, ∀ n, OpensInside (c.rest.map (·.token)) q n → n < maxNesting := by
  obtain ⟨hlimit, us, u, rest, hrest, hrest', hkind, hopen, hclimbs⟩ := h.refused_at_limit hrun
  have htokens : c.rest.map (·.token) = us.map (·.token) ++ u.token :: rest.map (·.token) := by
    rw [hrest, List.map_append, List.map_cons]
  have hlength : (us.map (·.token)).length = us.length := List.length_map _
  refine ⟨hlimit, us.length, ?_, ?_, ⟨⟨u.token, ?_, hkind⟩, ?_⟩, fun q hq n hopens => ?_⟩
  · rw [hrest, hrest', List.length_append]
  · rw [hrest, hrest', List.drop_left]
  · rw [htokens, List.getElem?_append_right (Nat.le_of_eq hlength), hlength, Nat.sub_self,
      List.getElem?_cons_zero]
  · rw [htokens, List.take_left' hlength, hopen]
  · exact hclimbs.lt_of_opensInside (htokens ▸ List.prefix_append _ _) hq hopens

/-! ### Sources that are derived at some nesting -/

/-- What is derived is refused only for a bracket. -/
theorem RightAfter.tooDeep_of_isFile {d : Derivation} (hd : d.IsFile) {p : Nat} {found : Option Token}
    {fault : Fault} (hfound : found = d.tokens[p]?)
    (h : RightAfter d.tokens (d.tokens.take p) found fault) :
    ∃ limit, fault = .tooDeep limit := by
  cases fault with
  | tooDeep limit => exact ⟨limit, rfl⟩
  | unexpected expected =>
    obtain ⟨-, hwrong, hend, -⟩ := h
    cases hnext : d.tokens[p]? with
    | none => exact absurd ⟨d, hd, rfl⟩ (hend (hfound.trans hnext))
    | some t =>
      refine absurd ⟨d, hd, ?_⟩ (hwrong t (hfound.trans hnext))
      obtain ⟨hp, rfl⟩ := List.getElem?_eq_some_iff.mp hnext
      rw [List.take_append_getElem hp]
      exact List.take_prefix _ _

section Derived

variable {source : String} {lexemes : List Lexeme} (hlex : lex source = .ok lexemes)
  {options : ParserOptions}
  {d : Derivation}
include hlex

/-- In a source that is parsed fewer brackets are open around each than there may be. -/
theorem lt_of_parse_ok {g : Grammar} (h : parse source options = .ok g) {p n : Nat}
    (hopens : OpensInside (lexemes.map (·.token)) p n) : n < maxNesting := by
  obtain ⟨hfile, htokens, hnesting⟩ := (parse_derivation_iff hlex).mp ⟨g, h, rfl⟩
  rw [← map_token_locate (.ofSource source)] at htokens hopens
  obtain ⟨g', hreads, -⟩ := reads_file_iff.mpr ⟨hfile, htokens, hnesting⟩
  obtain ⟨tried, hrun⟩ := run_of_reads (decided_file maxNesting) hreads .nil
    (.start (locate (.ofSource source) lexemes)) (List.append_nil _).symm
  obtain ⟨us, hus, hclimbs⟩ := (Confined.file 63).reaches (.start (locate (.ofSource source) lexemes))
  have hall : locate (.ofSource source) lexemes = us := by
    have hrest := hus
    rw [show Rules.file (63 + 1) = Rules.file maxNesting from rfl, hrun] at hrest
    exact hrest.trans (List.append_nil us)
  obtain ⟨⟨t, ht, -⟩, -⟩ := id hopens
  have hp := (List.getElem?_eq_some_iff.mp ht).1
  rw [List.length_map, hall] at hp
  exact hclimbs.lt_of_opensInside (hall ▸ List.prefix_rfl) hp hopens

/-- A source that lexes is parsed or has parse errors. -/
theorem exists_errors_of_not_parsed (h : ¬∃ g, parse source options = .ok g) :
    ∃ errors, parse source options = .error (.parse errors) := by
  have hparse := parse_of_lex hlex options
  cases hrun : parseTokens (.ofSource source options) (locate (.ofSource source) lexemes) with
  | ok g => exact absurd ⟨g, hparse.trans (hrun ▸ rfl)⟩ h
  | error errors => exact ⟨errors, hparse.trans (hrun ▸ rfl)⟩

/-- A source that is derived but not parsed is refused at its first bracket inside as many as there may
be. -/
theorem exists_refused_of_isFile (hd : d.IsFile) (htokens : d.tokens = lexemes.map (·.token))
    (hfails : ¬∃ g, parse source options = .ok g) :
    ∃ e others p, parse source options = .error (.parse (e :: others)) ∧ e.fault = .tooDeep maxNesting ∧
      e.blamed? = (locate (.ofSource source) lexemes)[p]? ∧
      OpensInside (lexemes.map (·.token)) p maxNesting ∧
      ∀ q < p, ∀ n, OpensInside (lexemes.map (·.token)) q n → n < maxNesting := by
  obtain ⟨errors, h⟩ := exists_errors_of_not_parsed hlex hfails
  have hparse := (parse_eq_error_of_lex hlex).mp h
  obtain ⟨e, others, p, rfl, -, hblamed, hright⟩ := parseTokens_rightAfter_take hparse
  rw [map_token_locate] at hright
  have hfound : e.found = d.tokens[p]? := by
    have hmapped := congrArg (Option.map (·.token)) hblamed
    rw [ParseError.blamed?, Option.map_map, ← List.getElem?_map, map_token_locate, ← htokens] at hmapped
    exact Option.map_id'.symm.trans hmapped
  rw [← htokens] at hright
  obtain ⟨limit, hfault⟩ := hright.tooDeep_of_isFile hd hfound
  obtain ⟨fault, ⟨c, others', heq, hrest⟩, hlimit, -⟩ := parseTokens_first_error hparse
  obtain ⟨rfl, rfl⟩ := List.cons.inj heq
  obtain rfl : fault = .tooDeep limit := hfault
  cases hrun : (Rules.file maxNesting).run (.start (locate (.ofSource source) lexemes)) with
  | ok g c' =>
    rw [hrun] at hlimit
    cases hlimit
  | failed fault c' =>
    rw [hrun] at hlimit hrest
    cases fault with
    | unexpected kinds => cases hlimit
    | tooDeep limit' =>
      obtain rfl : limit = limit' := Option.some.inj hlimit
      obtain ⟨rfl, q, -, hq, hopens, hbefore⟩ :=
        (Confined.file 63 : Confined maxNesting _).opensInside hrun
      have htokens' : (Cursor.start (locate (.ofSource source) lexemes)).rest.map (·.token) =
          lexemes.map (·.token) := map_token_locate _ _
      rw [htokens'] at hopens hbefore
      refine ⟨_, others, q, h, rfl, ?_, hopens, hbefore⟩
      rw [ParseContext.blamed?_blame, hrest]
      exact (congrArg List.head? hq).trans List.head?_drop

end Derived

/-! ### Attempts by number -/

/-- Where a run goes on after another, a bracket is refused by one of the two. -/
theorem Outcome.nestingLimit?_bind {o : Outcome α} {f : α → Cursor → Outcome β}
    (ho : o.fault.nestingLimit? = none) (hf : ∀ x c, (f x c).fault.nestingLimit? = none) :
    (o.bind f).fault.nestingLimit? = none := by
  cases o with
  | ok x c => exact hf x c
  | failed fault c => exact ho

/-- A rule that refuses no bracket reports none. -/
theorem Rule.nestingLimit?_run {r : Rule s α} (hr : r.limitless) (c : Cursor) :
    (r.run c).fault.nestingLimit? = none := by
  induction r generalizing c with
  | nothing => rfl
  | token kind =>
    rw [run]
    split
    · split <;> rfl
    · rfl
  | seq a b iha ihb =>
    rw [limitless, Bool.and_eq_true] at hr
    refine Outcome.nestingLimit?_bind (iha hr.1 c) fun x c' => ?_
    rw [Outcome.fault_map]
    exact ihb hr.2 c'
  | choice a b iha ihb =>
    rw [limitless, Bool.and_eq_true] at hr
    rw [run]
    split
    · exact iha hr.1 c
    · exact ihb hr.2 (c.miss a.first)
  | iterate body ih =>
    have hround : ∀ {c fault c'}, body.run c = .failed fault c' → fault.nestingLimit? = none := by
      intro c fault c' hrun
      have hfault := ih hr c
      rwa [hrun] at hfault
    induction c using @iterate_induction _ body with
    | stop => rfl
    | failed c fault c' _ hrun => exact hround hrun
    | last => rfl
    | more c a c' _ _ hmore =>
      rw [Outcome.fault_map]
      exact hmore
  | map f rule ih =>
    rw [run, Outcome.fault_map]
    exact ih hr c
  | ranged f rule ih => exact Outcome.nestingLimit?_bind (ih hr c) fun _ _ => rfl
  | tooDeep => cases hr

/-- No error of a prolog is about nesting. -/
theorem nestingLimit?_of_prolog (context : ParseContext) (tokens : List LocatedToken) {e : ParseError}
    (he : e ∈ (prolog context (.start tokens)).found.errors) : e.fault.nestingLimit? = none := by
  have hlimitless : ∀ {α : Type} {r : Rule true α}, r.limitless →
      r.FailsWith context tokens fun e => e.fault.nestingLimit? = none := by
    intro α r hr c fault c' _ _ hrun
    have hfault := nestingLimit?_run hr c
    rwa [hrun] at hfault
  exact (sound_prolog (hlimitless rfl) fun allowed =>
    hlimitless (limitless_prologItem allowed)).errors e he

namespace Tape

variable {tape : Tape} {options : ParserOptions} {found : Findings} {place next : Place} {e : ParseError}

/-- Whether a reading makes an attempt at a production at a place, with what was found before: the
first one behind `%%`, or one after some rounds of the loop. -/
def AttemptAt (tape : Tape) (options : ParserOptions) (found : Findings) (place : Place) : Prop :=
  ∃ first percent start n, tape.prolog? options ⟨0, [], 0⟩ = some first ∧ first.found.stopped = false ∧
    tape.expect (.mark .percentPercent) first.place = some (.done percent start) ∧
    Steps (tape.ProductionRound options) n (first.found, start) (found, place)

/-- After a round over the productions no bracket is open. -/
theorem rests_of_productionRound {s s' : Findings × Place} (h : tape.ProductionRound options s s')
    (hs : tape.Rests s.2) : tape.Rests s'.2 := by
  obtain ⟨first, hfirst, hgoes, rfl⟩ := h
  obtain ⟨c, hmeets⟩ := rests_iff.mp hs
  obtain ⟨first', hfirst', hmirrors, hnext⟩ := exists_productionAttempt? options s.1 hmeets
  obtain rfl := Option.some.inj (hfirst.symm.trans hfirst')
  have hrunning : first.found.stopped = false := (Bool.or_eq_false_iff.mp hgoes).1
  exact rests_iff.mpr ⟨_, hnext (hmirrors.found ▸ hrunning)⟩

/-- **Every attempt at a production starts with no bracket open**, however those before it have failed. -/
theorem AttemptAt.rests (h : tape.AttemptAt options found place) : tape.Rests place := by
  obtain ⟨first, percent, start, n, hprolog, -, hpercent, hsteps⟩ := h
  exact hsteps.keeps (P := fun s => tape.Rests s.2) (fun _ _ => rests_of_productionRound)
    (rests_of_percent hprolog hpercent)

/-- However a factor ends, as many brackets are counted as before it. -/
theorem depth_of_factor {calls : Nat} {attempt : Attempt Factor}
    (hle : place.position ≤ tape.lexemes.size)
    (hdepth : place.depth ≤ maxNesting) (hcalls : maxNesting < place.depth + calls)
    (h : tape.factor calls place = some attempt) : attempt.place.depth = place.depth := by
  obtain ⟨c, hmeets⟩ := exists_meets hle
  have hfollows :
      tape.Follows place.depth (tape.factor calls) (Rules.factor (maxNesting - place.depth)) :=
    follows_factor (by omega) (by omega)
  have hagrees := hfollows hmeets
  rw [h] at hagrees
  generalize (Rules.factor _).run c = o at hagrees
  cases hagrees with
  | done hnext => exact hnext.depth
  | failed hnext => exact hnext.depth

/-- However a production ends, no brackets are counted after it. -/
theorem depth_of_production {attempt : Attempt Production} (hplace : tape.Rests place)
    (h : tape.production place = some attempt) : attempt.place.depth = 0 := by
  obtain ⟨c, hmeets⟩ := rests_iff.mp hplace
  have hagrees := follows_production hmeets
  rw [h] at hagrees
  generalize (Rules.production maxNesting).run c = o at hagrees
  cases hagrees with
  | done hnext => exact hnext.depth
  | failed hnext => exact hnext.depth

/-- **A production refuses the first bracket inside as many of its own as there may be.** -/
theorem opensInside_of_production (hplace : tape.Rests place)
    (hfailed : tape.production place = some (.failed e next)) {limit : Nat}
    (he : e.fault = .tooDeep limit) :
    limit = maxNesting ∧ e.blamed? = tape.tokens[next.position]? ∧ place.position ≤ next.position ∧
      OpensInside ((tape.tokens.drop place.position).map (·.token)) (next.position - place.position)
        maxNesting := by
  obtain ⟨c, hmeets⟩ := rests_iff.mp hplace
  have hagrees := follows_production hmeets
  rw [hfailed] at hagrees
  cases hrun : (Rules.production maxNesting).run c with
  | ok p c' =>
    rw [hrun] at hagrees
    cases hagrees
  | failed fault c' =>
    rw [hrun] at hagrees
    cases hagrees with
    | failed hnext =>
      obtain rfl : fault = .tooDeep limit := he
      obtain ⟨rfl, p, hlength, -, hopens, -⟩ := (Confined.production maxNesting).opensInside hrun
      have hle := hnext.le_size
      have hle' := hmeets.le_size
      rw [hmeets.length_rest, hnext.length_rest] at hlength
      obtain rfl : p = next.position - place.position := by omega
      refine ⟨rfl, ?_, by omega, hmeets.rest ▸ hopens⟩
      rw [errorAt, ParseContext.blamed?_blame, hnext.rest, List.head?_drop]

/-! ### Where nesting errors come from -/

/-- What an attempt at a production has found was found before or is how it has failed. -/
theorem mem_errors_of_productionAttempt? {r : TapeReading (Option (List Production))}
    (h : tape.productionAttempt? options found place = some r) (he : e ∈ r.found.errors) :
    e ∈ found.errors ∨ ∃ next, tape.production place = some (.failed e next) := by
  unfold productionAttempt? at h
  split at h
  case h_1 => cases h
  case h_2 =>
    cases h
    exact .inl he
  case h_3 error next hread =>
    have hfound : r.found = found.report options error := by
      dsimp only at h
      split at h
      · cases h
        rfl
      · obtain ⟨past, -, rfl⟩ := Option.map_eq_some_iff.mp h
        rfl
    rw [hfound] at he
    rcases List.mem_append.mp he with he | he
    · exact .inl he
    · exact .inr ⟨next, List.mem_singleton.mp he ▸ hread⟩

/-- What rounds over the productions have found was found before them or is how an attempt has failed. -/
theorem mem_errors_of_steps {n : Nat} {s s' : Findings × Place}
    (h : Steps (tape.ProductionRound options) n s s') (he : e ∈ s'.1.errors) :
    e ∈ s.1.errors ∨ ∃ k failing next, Steps (tape.ProductionRound options) k s failing ∧
      tape.production failing.2 = some (.failed e next) := by
  induction h with
  | none s => exact .inl he
  | @more _ s _ _ hround _ ih =>
    rcases ih he with he | ⟨k, failing, next, hsteps, hfailed⟩
    · obtain ⟨first, hfirst, -, rfl⟩ := id hround
      exact (mem_errors_of_productionAttempt? hfirst he).imp_right
        fun ⟨next, hfailed⟩ => ⟨0, s, next, .none s, hfailed⟩
    · exact .inr ⟨k + 1, failing, next, .more hround hsteps, hfailed⟩

/-- The errors of the loop over the productions are those before it and those of its attempts. -/
theorem mem_errors_of_productionLoop {more : Nat} {s : Findings × Place}
    {r : TapeReading (Option (List Production))} (h : tape.productionLoop options more s = some r)
    (he : e ∈ r.found.errors) :
    e ∈ s.1.errors ∨ ∃ k failing next, Steps (tape.ProductionRound options) k s failing ∧
      tape.production failing.2 = some (.failed e next) := by
  obtain ⟨n, s', hsteps, ⟨last, hlast, -, hfound, -⟩, -⟩ := rounds_of_productionLoop h
  rw [hfound] at he
  rcases mem_errors_of_productionAttempt? hlast he with he | ⟨next, hfailed⟩
  · exact mem_errors_of_steps hsteps he
  · exact .inr ⟨n, s', next, hsteps, hfailed⟩

/-- A missing token is no matter of nesting. -/
theorem nestingLimit?_of_expect {kind : TokenKind}
    (h : tape.expect kind place = some (.failed e next)) : e.fault.nestingLimit? = none := by
  rw [expect] at h
  split at h
  · obtain ⟨⟨token, past⟩, -, h⟩ := Option.bind_eq_some_iff.mp h
    dsimp only at h
    split at h <;> cases h
  · obtain ⟨error, hblame, h⟩ := Option.bind_eq_some_iff.mp h
    obtain ⟨range, -, hblame⟩ := Option.bind_eq_some_iff.mp hblame
    cases h
    cases hblame
    rfl

/-- **A nesting error is the failure of an attempt at a production.** -/
theorem exists_attemptAt {first : TapeReading (Option Prolog)} {second : TapeReading (Option Definition)}
    (hfirst : tape.prolog? options ⟨0, [], 0⟩ = some first)
    (hsecond : tape.definitionAfter? options first = some second) (he : e ∈ second.found.errors)
    (hlimit : e.fault.nestingLimit? ≠ none) :
    ∃ found place next, tape.AttemptAt options found place ∧
      tape.production place = some (.failed e next) := by
  have hprolog : e ∉ first.found.errors := by
    intro hmem
    obtain ⟨first', hfirst', hmirrors, -⟩ := exists_prolog? options tape.meets_start
    obtain rfl := Option.some.inj (hfirst.symm.trans hfirst')
    rw [hmirrors.found] at hmem
    exact hlimit (nestingLimit?_of_prolog _ tape.tokens hmem)
  unfold definitionAfter? at hsecond
  split at hsecond
  case isTrue =>
    cases hsecond
    exact absurd he hprolog
  case isFalse hrunning =>
    unfold definition? at hsecond
    split at hsecond
    case h_1 => cases hsecond
    case h_2 error next hread =>
      cases hsecond
      rcases List.mem_append.mp he with he | he
      · exact absurd he hprolog
      · rw [List.mem_singleton.mp he] at hlimit
        exact absurd (nestingLimit?_of_expect hread) hlimit
    case h_3 percent start hread =>
      obtain ⟨items, hitems, hsecond⟩ := Option.bind_eq_some_iff.mp hsecond
      have hfound : second.found = items.found := by
        split at hsecond
        · cases hsecond
          rfl
        · obtain ⟨range, -, hsecond⟩ := Option.bind_eq_some_iff.mp hsecond
          cases hsecond
          rfl
      rw [hfound] at he
      rcases mem_errors_of_productionLoop (s := (first.found, start)) hitems he with
        he | ⟨k, failing, next, hsteps, hfailed⟩
      · exact absurd he hprolog
      · exact ⟨failing.1, failing.2, next,
          ⟨first, percent, start, k, hfirst, Bool.eq_false_iff.mpr hrunning, hread, hsteps⟩, hfailed⟩

end Tape

/-! ### From the source text -/

/-- **The nesting limit is exact, and the open brackets are always counted off again.** A source
that the table derives at some nesting is parsed just where no bracket stands inside as many as
there may be, which is where it is derived at the limit. Otherwise its first error refuses the first
bracket that does. Every source is read by attempts at productions that start with no bracket open,
however the attempts before them have ended, and every nesting error refuses a bracket that stands
inside just as many of its own attempt. -/
theorem nesting_limit_exact {source : String} {lexemes : List Lexeme} (hlex : lex source = .ok lexemes)
    (options : ParserOptions) :
    let tokens := lexemes.map (·.token)
    let tape := Tape.mk source lexemes.toArray
    (∀ d : Derivation, d.IsFile → d.tokens = tokens →
      ((∃ g, parse source options = .ok g) ↔ ∀ p n, OpensInside tokens p n → n < maxNesting) ∧
      ((∃ g, parse source options = .ok g) ↔ d.nesting ≤ maxNesting) ∧
      ((¬∃ g, parse source options = .ok g) →
        ∃ e others p, parse source options = .error (.parse (e :: others)) ∧
          e.fault = .tooDeep maxNesting ∧ e.blamed? = (locate (.ofSource source) lexemes)[p]? ∧
          OpensInside tokens p maxNesting ∧ ∀ q < p, ∀ n, OpensInside tokens q n → n < maxNesting)) ∧
    (∀ found place, tape.AttemptAt options found place → place.depth = 0 ∧
      ∀ attempt, tape.production place = some attempt → attempt.place.depth = 0) ∧
    (∀ calls place attempt, place.position ≤ lexemes.length → place.depth ≤ maxNesting →
      maxNesting < place.depth + calls → tape.factor calls place = some attempt →
      attempt.place.depth = place.depth) ∧
    ∀ errors, parse source options = .error (.parse errors) →
      ∀ e ∈ errors, ∀ limit, e.fault = .tooDeep limit →
        limit = maxNesting ∧ ∃ found place next, tape.AttemptAt options found place ∧
          tape.production place = some (.failed e next) ∧ place.position ≤ next.position ∧
          e.blamed? = (locate (.ofSource source) lexemes)[next.position]? ∧
          OpensInside (tokens.drop place.position) (next.position - place.position) maxNesting := by
  intro tokens tape
  have htape : tape.tokens = locate (.ofSource source) lexemes := tokens_mk_toArray source lexemes
  have hsize : tape.lexemes.size = lexemes.length := List.size_toArray
  refine ⟨fun d hd htokens => ?_, fun found place hattempt => ?_, ?_, ?_⟩
  · have hrefused := @exists_refused_of_isFile source lexemes hlex options d hd htokens
    refine ⟨⟨fun ⟨g, hg⟩ p n => lt_of_parse_ok hlex hg, ?_⟩, ⟨?_, ?_⟩, hrefused⟩
    · intro hshallow
      by_contra hfails
      obtain ⟨-, -, p, -, -, -, hopens, -⟩ := hrefused hfails
      exact Nat.lt_irrefl _ (hshallow p maxNesting hopens)
    · rintro ⟨g, hg⟩
      obtain ⟨hfile, htokens', hnesting⟩ := (parse_derivation_iff hlex).mp ⟨g, hg, rfl⟩
      rwa [derivation_unique hd hfile (htokens.trans htokens'.symm)]
    · intro hnesting
      obtain ⟨g, hg, -⟩ := (parse_derivation_iff hlex).mpr ⟨hd, htokens, hnesting⟩
      exact ⟨g, hg⟩
  · exact ⟨hattempt.rests.depth, fun attempt => Tape.depth_of_production hattempt.rests⟩
  · intro calls place attempt hle
    exact Tape.depth_of_factor (hsize ▸ hle)
  · intro errors herrors e he limit hlimit
    obtain ⟨first, second, hfirst, hsecond, hfound, -⟩ := Tape.exists_halves options tape
    rw [htape] at hfound
    rw [eq_of_parseTokens_eq_error _ ((parse_eq_error_of_lex hlex).mp herrors), ← hfound] at he
    have hnesting : e.fault.nestingLimit? ≠ none := by
      rw [hlimit]
      exact Option.some_ne_none limit
    obtain ⟨found, place, next, hattempt, hfailed⟩ := Tape.exists_attemptAt hfirst hsecond he hnesting
    obtain ⟨rfl, hblamed, hle, hopens⟩ := Tape.opensInside_of_production hattempt.rests hfailed hlimit
    rw [htape, List.map_drop, map_token_locate] at hopens
    exact ⟨rfl, found, place, next, hattempt, hfailed, hle, htape ▸ hblamed, hopens⟩

/-- Sixty-five parentheses inside each other are derived, and the last of them is refused. -/
theorem nesting_limit_exact_parentheses :
    let source := "%start A%%A:" ++ "".pushn '(' 65 ++ "B" ++ "".pushn ')' 65 ++ ";"
    ∃ lexemes, lex source = .ok lexemes ∧ lexemes.length = 137 ∧
      let tokens := lexemes.map (·.token)
      (∃ d : Derivation, d.IsFile ∧ d.tokens = tokens) ∧ OpensInside tokens 69 maxNesting ∧
      ∃ e others p, parse source .default = .error (.parse (e :: others)) ∧
        e.fault = .tooDeep maxNesting ∧
        e.blamed? = (locate (.ofSource source) lexemes)[p]? ∧ p ≤ 69 ∧ OpensInside tokens p maxNesting ∧
        ∃ found place next,
          (Tape.mk source lexemes.toArray).AttemptAt .default found place ∧ place.depth = 0 ∧
          (Tape.mk source lexemes.toArray).production place = some (.failed e next) := by
  intro source
  let tokens : List Token := [.mark .start, .identifier "A", .mark .percentPercent, .identifier "A",
    .mark .colon] ++ List.replicate 65 (.mark .leftParen) ++ .identifier "B" ::
      List.replicate 65 (.mark .rightParen) ++ [.mark .semicolon]
  have htokens : (lex source).map (·.map (·.token)) = .ok tokens := by decide +kernel
  cases hlex : lex source with
  | error error =>
    rw [hlex] at htokens
    cases htokens
  | ok lexemes =>
    rw [hlex] at htokens
    have htokens : lexemes.map (·.token) = tokens := Except.ok.inj htokens
    have hlength : lexemes.length = 137 := by rw [← List.length_map (·.token), htokens]; rfl
    obtain ⟨g, hg⟩ : ∃ g, (Rules.file 65).Reads (tokens.map (⟨·, .origin⟩)) g :=
      (exists_reads_iff (decided_file 65)).mpr (by decide +kernel)
    obtain ⟨hfile, hderived, -⟩ := reads_file_iff.mp ⟨g, hg, rfl⟩
    have hderived : g.derivation.tokens = lexemes.map (·.token) := hderived.trans htokens.symm
    have hopens : OpensInside (lexemes.map (·.token)) 69 maxNesting := by
      rw [htokens]
      exact ⟨⟨.mark .leftParen, rfl, by decide⟩, by decide +kernel⟩
    obtain ⟨hexact, hdepth, -, herrors⟩ := nesting_limit_exact hlex .default
    obtain ⟨hparsed, -, hrefused⟩ := hexact g.derivation hfile hderived
    obtain ⟨e, others, p, hparse, hfault, hblamed, hp, hbefore⟩ :=
      hrefused fun hok => Nat.lt_irrefl _ (hparsed.mp hok 69 maxNesting hopens)
    have hle : p ≤ 69 := Nat.le_of_not_lt fun hlt => Nat.lt_irrefl _ (hbefore 69 hlt maxNesting hopens)
    obtain ⟨-, found, place, next, hattempt, hfailed, -⟩ :=
      herrors _ hparse e List.mem_cons_self maxNesting hfault
    exact ⟨lexemes, rfl, hlength, ⟨g.derivation, hfile, hderived⟩, hopens, e, others, p, hparse, hfault,
      hblamed, hle, hp, found, place, next, hattempt, (hdepth found place hattempt).1, hfailed⟩

end GrammarFile
