import DrShadowStack.Common.ProgramOptions

/-!
# What is parsed of a command line

The words are read one after the other (`Documented.run_eq`), so what is true of the words one by
one is true of all that is parsed: what is collected (`collected_parse`), what is given by name
(`NamedOnly`), and which flags there are (`AllFlags.store_eq_some_iff`).
-/

namespace ProgramOptions

/-! ## Parsing -/

section CommandLine

variable {lib : Library} {desc : Description} {takes : CString → Bool} {w name : CString}
  {ws : List CString} {opts : List ParsedOption} {vm : VariablesMap}

theorem Documented.run_eq (hlib : Documented lib) (desc : Description) (ws : List CString) :
    lib.run desc ws = parse (lib.takes desc) desc ws := by
  fun_induction parse (lib.takes desc) desc ws with
  | case1 => exact hlib.run_nil desc
  | case2 w ws htoken => exact hlib.run_terminator desc w ws htoken
  | case3 w ws htoken => exact hlib.run_malformed desc w ws htoken
  | case4 w ws opts htoken ih => rw [hlib.run_complete desc w ws opts htoken, ih]
  | case5 w name htoken => exact hlib.run_missing desc w name htoken
  | case6 w name htoken v ws htakes ih =>
    rw [hlib.run_value desc w v ws name htoken, if_pos htakes, ih]
  | case7 w name htoken v ws htakes =>
    rw [hlib.run_value desc w v ws name htoken, if_neg htakes]

/-- Words are collected at most as they stand on the command line, and they all are only if each is
kept. -/
theorem collected_parse (h : parse takes desc ws = some opts) :
    (opts.flatMap ParsedOption.collected).length ≤ ws.length ∧
      ((opts.flatMap ParsedOption.collected).length = ws.length → ∀ w ∈ ws, keeps desc w) := by
  fun_induction parse takes desc ws generalizing opts with
  | case1 =>
    obtain rfl := Option.some.inj h
    simp
  | case2 w ws htoken =>
    -- the terminator is not collected
    obtain rfl := Option.some.inj h
    simp [List.flatMap_map, ParsedOption.collected]
  | case3 w ws htoken => cases h
  | case4 w ws first htoken ih =>
    obtain ⟨rest, hrest, rfl⟩ := Option.map_eq_some_iff.mp h
    obtain ⟨hle, hkeeps⟩ := ih hrest
    rw [List.flatMap_append, List.length_append, List.length_cons]
    rcases collected_complete htoken with hnone | hw
    · rw [hnone, List.length_nil]
      exact ⟨by omega, fun heq => absurd heq (by omega)⟩
    · rw [hw, List.length_singleton]
      refine ⟨by omega, fun heq => List.forall_mem_cons.mpr ⟨?_, hkeeps (by omega)⟩⟩
      exact keeps_iff.mpr ⟨first, htoken, hw⟩
  | case5 w name htoken => cases h
  | case6 w name htoken v ws htakes ih =>
    obtain ⟨rest, hrest, rfl⟩ := Option.map_eq_some_iff.mp h
    obtain ⟨hle, -⟩ := ih hrest
    simp only [List.flatMap_cons, ParsedOption.collected, List.nil_append, List.length_cons]
    exact ⟨by omega, fun heq => absurd heq (by omega)⟩
  | case7 w name htoken v ws htakes => cases h

/-- Words that are kept are collected as they stand, and give no option a value by its name. -/
theorem NoFlags.parse_keeps (hdesc : NoFlags desc) (h : ∀ w ∈ ws, keeps desc w) :
    ∃ opts, parse takes desc ws = some opts ∧ opts.flatMap ParsedOption.collected = ws ∧
      ∀ o ∈ opts, ∀ name value, o ≠ .named name value := by
  induction ws with
  | nil => exact ⟨[], rfl, rfl, by simp⟩
  | cons w ws ih =>
    obtain ⟨hw, hws⟩ := List.forall_mem_cons.mp h
    obtain ⟨rest, hrest, hcollected, hnamed⟩ := ih hws
    obtain ⟨first, htoken, hfirst⟩ := keeps_iff.mp hw
    refine ⟨first ++ rest, ?_, ?_, ?_⟩
    · rw [parse, htoken, hrest]
      rfl
    · rw [List.flatMap_append, hfirst, hcollected]
      rfl
    · rcases hdesc.complete htoken with ⟨v, rfl⟩ | rfl | ⟨o, -, v, rfl⟩
      · simpa using hnamed
      · simpa using hnamed
      · simp [ParsedOption.collected] at hfirst

/-- The words give options by name, and end at most in a terminator: `given` are the options with
their values. -/
inductive NamedOnly (takes : CString → Bool) (desc : Description) :
    List CString → List (CString × CString) → Prop
  | nil : NamedOnly takes desc [] []
  | terminator {w : CString} : token desc w = .terminator → NamedOnly takes desc [w] []
  | next {w v name : CString} {ws : List CString} {given : List (CString × CString)} :
      token desc w = .needsValue name → takes v = true → NamedOnly takes desc ws given →
      NamedOnly takes desc (w :: v :: ws) ((name, v) :: given)
  | adjacent {w v name : CString} {ws : List CString} {given : List (CString × CString)} :
      token desc w = .complete [.named name [v]] → NamedOnly takes desc ws given →
      NamedOnly takes desc (w :: ws) ((name, v) :: given)

/-- The options given, as they are parsed. -/
def parsedOf (given : List (CString × CString)) : List ParsedOption :=
  given.map fun g => .named g.1 [g.2]

/-- Nothing is collected exactly of the words that give options by name alone. -/
theorem NoFlags.namedOnly_iff (hdesc : NoFlags desc) :
    (∃ given, NamedOnly takes desc ws given ∧ opts = parsedOf given) ↔
      parse takes desc ws = some opts ∧ opts.flatMap ParsedOption.collected = [] := by
  constructor
  · rintro ⟨given, hgiven, rfl⟩
    induction hgiven with
    | nil => exact ⟨rfl, rfl⟩
    | terminator htoken =>
      rw [parse, htoken]
      exact ⟨rfl, rfl⟩
    | next htoken htakes _ ih =>
      rw [parse, htoken]
      simp only [htakes, if_true, ih.1, Option.map_some]
      exact ⟨rfl, ih.2⟩
    | adjacent htoken _ ih =>
      rw [parse, htoken]
      simp only [ih.1, Option.map_some]
      exact ⟨rfl, ih.2⟩
  · rintro ⟨hparse, hcollected⟩
    fun_induction parse takes desc ws generalizing opts with
    | case1 => exact ⟨[], .nil, (Option.some.inj hparse).symm⟩
    | case2 w ws htoken =>
      obtain rfl := Option.some.inj hparse
      cases ws with
      | nil => exact ⟨[], .terminator htoken, rfl⟩
      | cons v ws => simp [ParsedOption.collected] at hcollected
    | case3 w ws htoken => cases hparse
    | case4 w ws first htoken ih =>
      obtain ⟨rest, hrest, rfl⟩ := Option.map_eq_some_iff.mp hparse
      rw [List.flatMap_append, List.append_eq_nil_iff] at hcollected
      obtain ⟨given, hgiven, rfl⟩ := ih hrest hcollected.2
      rcases hdesc.complete htoken with ⟨v, rfl⟩ | rfl | ⟨o, -, v, rfl⟩
      · simp [ParsedOption.collected] at hcollected
      · simp [ParsedOption.collected] at hcollected
      · exact ⟨(o.name, v) :: given, .adjacent htoken hgiven, rfl⟩
    | case5 w name htoken => cases hparse
    | case6 w name htoken v ws htakes ih =>
      obtain ⟨rest, hrest, rfl⟩ := Option.map_eq_some_iff.mp hparse
      obtain ⟨given, hgiven, rfl⟩ := ih hrest hcollected
      exact ⟨(name, v) :: given, .next htoken htakes hgiven, rfl⟩
    | case7 w name htoken v ws htakes => cases hparse

/-- Options given by name have no position. -/
theorem assign_parsedOf (pos : Positional) (i : ℕ) (given : List (CString × CString)) :
    pos.assign i (parsedOf given) = parsedOf given := by
  induction given with
  | nil => rfl
  | cons g given ih => exact congrArg (_ :: ·) ih

theorem length_occurrences_parsedOf (name : CString) (given : List (CString × CString)) :
    (occurrences name (parsedOf given)).length = (given.map Prod.fst).count name := by
  induction given with
  | nil => rfl
  | cons g given ih =>
    unfold parsedOf at ih ⊢
    rw [List.map_cons, List.map_cons, occurrences_named, List.count_cons, ← ih]
    by_cases h : g.1 = name
    · simp [h]
    · simp [h]

/-- An option that is no flag has one value at each of its occurrences. -/
theorem NoFlags.parse_values (hdesc : NoFlags desc) (h : parse takes desc ws = some opts) :
    ∀ name value, .named name value ∈ opts → ∃ v, value = [v] := by
  fun_induction parse takes desc ws generalizing opts with
  | case1 =>
    obtain rfl := Option.some.inj h
    simp
  | case2 w ws htoken =>
    obtain rfl := Option.some.inj h
    simp
  | case3 w ws htoken => cases h
  | case4 w ws first htoken ih =>
    obtain ⟨rest, hrest, rfl⟩ := Option.map_eq_some_iff.mp h
    intro name value hmem
    rcases List.mem_append.mp hmem with hfirst | hrest'
    · rcases hdesc.complete htoken with ⟨v, rfl⟩ | rfl | ⟨o, -, v, rfl⟩
      · simp at hfirst
      · simp at hfirst
      · exact ⟨v, by simpa using (ParsedOption.named.inj (List.mem_singleton.mp hfirst)).2⟩
    · exact ih hrest name value hrest'
  | case5 w name htoken => cases h
  | case6 w n htoken v ws htakes ih =>
    obtain ⟨rest, hrest, rfl⟩ := Option.map_eq_some_iff.mp h
    intro name value hmem
    rcases List.mem_cons.mp hmem with heq | hrest'
    · exact ⟨v, (ParsedOption.named.inj heq).2⟩
    · exact ih hrest name value hrest'
  | case7 w name htoken v ws htakes => cases h

/-- The same behind the naming of the positions. -/
theorem NoFlags.occurrences_values (hdesc : NoFlags desc) (h : parse takes desc ws = some opts)
    (pos : Positional) (i : ℕ) :
    ∀ value ∈ occurrences name (pos.assign i opts), ∃ v, value = [v] := by
  have hvalues := hdesc.parse_values h
  clear h
  fun_induction Positional.assign pos i opts with
  | case1 => simp
  | case2 i n value original opts ih =>
    have hrest := ih fun n' v' hmem => hvalues n' v' (List.mem_cons_of_mem _ hmem)
    rw [occurrences_positional]
    split_ifs with hname
    · exact List.forall_mem_cons.mpr ⟨⟨value, rfl⟩, hrest⟩
    · exact hrest
  | case3 i o opts hno ih =>
    have hrest := ih fun n' v' hmem => hvalues n' v' (List.mem_cons_of_mem _ hmem)
    cases o with
    | unregistered original => exact hrest
    | positional n value original => exact absurd rfl (hno n value original)
    | named n value =>
      rw [occurrences_named]
      split_ifs with hname
      · exact List.forall_mem_cons.mpr ⟨hvalues n value List.mem_cons_self, hrest⟩
      · exact hrest

/-- Naming the positions changes nothing about what is collected. -/
theorem collected_assign (pos : Positional) (i : ℕ) (opts : List ParsedOption) :
    (pos.assign i opts).flatMap ParsedOption.collected = opts.flatMap ParsedOption.collected := by
  fun_induction Positional.assign pos i opts with
  | case1 => rfl
  | case2 i n value original opts ih => simp [ParsedOption.collected, ih]
  | case3 i o opts hno ih => simp [ih]

/-- From the trailing positions on the positional options are all of the one name. -/
theorem occurrences_assign {pos : Positional} {i : ℕ} (hi : pos.names.length ≤ i)
    (hname : name ≠ pos.trailing) (h : ∀ o ∈ opts, ∀ n value, o ≠ .named n value) :
    occurrences name (pos.assign i opts) = [] := by
  fun_induction Positional.assign pos i opts with
  | case1 => rfl
  | case2 i n value original opts ih =>
    have htrailing : pos.nameFor i = pos.trailing := by
      rw [Positional.nameFor, List.getD_eq_getElem?_getD, List.getElem?_eq_none hi,
        Option.getD_none]
    rw [occurrences_positional, htrailing, if_neg fun h => hname (Option.some.inj h).symm]
    exact ih (by omega) fun o ho => h o (List.mem_cons_of_mem _ ho)
  | case3 i o opts hno ih =>
    have hrest := ih hi fun o ho => h o (List.mem_cons_of_mem _ ho)
    cases o with
    | named n value => exact absurd rfl (h _ List.mem_cons_self n value)
    | unregistered original => exact hrest
    | positional n value original => exact absurd rfl (hno n value original)

end CommandLine

/-! ## Descriptions of flags alone -/

/-- The words before the terminator. -/
def beforeTerminator (ws : List CString) : List CString := ws.takeWhile (·.chars ≠ dashes)

/-- The words behind the terminator. -/
def behindTerminator (ws : List CString) : List CString := (ws.dropWhile (·.chars ≠ dashes)).drop 1

/-- Every word before the terminator can be read, and among them no flag occurs twice. -/
def Accepts (desc : Description) (ws : List CString) : Prop :=
  (∀ w ∈ beforeTerminator ws, token desc w ≠ .malformed) ∧
    NoneTwice desc ((beforeTerminator ws).flatMap (optionsOf desc))

instance (desc : Description) (ws : List CString) : Decidable (Accepts desc ws) :=
  inferInstanceAs (Decidable (_ ∧ _))

section AllFlags

/-- A word that gives no option a value can be put in front. -/
theorem accepts_cons {desc : Description} {w : CString} {ws : List CString}
    {opts : List ParsedOption} (htoken : token desc w = .complete opts)
    (hnone : ∀ name, occurrences name opts = []) :
    Accepts desc (w :: ws) ↔ Accepts desc ws := by
  have hw : w.chars ≠ dashes := by
    intro heq
    rw [token_eq_terminator_iff.mpr heq] at htoken
    cases htoken
  unfold Accepts NoneTwice beforeTerminator
  rw [List.takeWhile_cons_of_pos (by simpa using hw), List.forall_mem_cons, List.flatMap_cons,
    optionsOf, htoken]
  simp [hnone]

variable {lib : Library} {desc : Description} {takes : CString → Bool} {w name : CString}
  {ws : List CString} {opts : List ParsedOption} {vm vm' : VariablesMap}

/-- No flag takes a value. -/
theorem AllFlags.ne_needsValue (hdesc : AllFlags desc) : token desc w ≠ .needsValue name := by
  intro h
  cases h ▸ reading desc w with
  | needsValue o ho hno =>
    obtain ⟨c, hc⟩ := hdesc o ho
    exact hno c hc

/-- The words before the terminator are read one by one. -/
theorem AllFlags.parse_eq_some_iff (hdesc : AllFlags desc) :
    parse takes desc ws = some opts ↔
      (∀ w ∈ beforeTerminator ws, token desc w ≠ .malformed) ∧
        opts = (beforeTerminator ws).flatMap (optionsOf desc) ++
          (behindTerminator ws).map fun v => .positional none v v := by
  induction ws generalizing opts with
  | nil => simp [parse, beforeTerminator, behindTerminator, eq_comm]
  | cons w ws ih =>
    rw [parse]
    unfold beforeTerminator behindTerminator at ih ⊢
    by_cases hw : w.chars = dashes
    · rw [token_eq_terminator_iff.mpr hw]
      simp [hw, eq_comm]
    · have hterminator : token desc w ≠ .terminator := mt token_eq_terminator_iff.mp hw
      rw [List.takeWhile_cons_of_pos (by simpa using hw),
        List.dropWhile_cons_of_pos (by simpa using hw), List.forall_mem_cons, List.flatMap_cons,
        optionsOf]
      cases htoken : token desc w with
      | terminator => exact absurd htoken hterminator
      | malformed => simp
      | needsValue name => exact absurd htoken hdesc.ne_needsValue
      | complete first =>
        simp only [Option.map_eq_some_iff, ih, ne_eq, reduceCtorEq, not_false_eq_true, true_and,
          List.append_assoc]
        constructor
        · rintro ⟨rest, ⟨hread, rfl⟩, rfl⟩
          exact ⟨hread, rfl⟩
        · rintro ⟨hread, rfl⟩
          exact ⟨_, ⟨hread, rfl⟩, rfl⟩

/-- A positional option without a name gives no value. -/
theorem occurrences_unnamed (ws : List CString) :
    occurrences name (ws.map fun v => .positional none v v) = [] := by
  rw [occurrences, List.filterMap_map, List.filterMap_eq_nil_iff]
  intro w _
  rfl

/-- **Parsing and storing flags.** -/
theorem AllFlags.store_eq_some_iff (hdesc : AllFlags desc) (hlib : Documented lib)
    (hfresh : ∀ o ∈ desc, vm o.name = none) :
    ((lib.run desc ws).bind fun opts => lib.store desc opts vm) = some vm' ↔
      Accepts desc ws ∧ vm' = stored ((beforeTerminator ws).flatMap (optionsOf desc)) vm := by
  have happend : ∀ name (opts : List ParsedOption),
      occurrences name (opts ++ (behindTerminator ws).map fun v => .positional none v v) =
        occurrences name opts := by
    intro name opts
    rw [occurrences_append, occurrences_unnamed, List.append_nil]
  rw [Option.bind_eq_some_iff]
  constructor
  · rintro ⟨opts, hrun, hstore⟩
    rw [hlib.store_run desc ws opts vm hrun hfresh] at hstore
    rw [hlib.run_eq, hdesc.parse_eq_some_iff] at hrun
    obtain ⟨hread, rfl⟩ := hrun
    split at hstore
    · next htwice =>
      refine ⟨⟨hread, ?_⟩, ?_⟩
      · simpa only [NoneTwice, happend] using htwice
      · rw [← Option.some.inj hstore]
        funext name
        rw [stored, stored, happend]
    · cases hstore
  · rintro ⟨⟨hread, htwice⟩, rfl⟩
    have hrun := (hlib.run_eq desc ws).trans (hdesc.parse_eq_some_iff.mpr ⟨hread, rfl⟩)
    refine ⟨_, hrun, ?_⟩
    rw [hlib.store_run desc ws _ vm hrun hfresh, if_pos]
    · congr 1
      funext name
      rw [stored, stored, happend]
    · simpa only [NoneTwice, happend] using htwice

end AllFlags

end ProgramOptions
