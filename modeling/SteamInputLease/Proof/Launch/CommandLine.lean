import SteamInputLease.Launch.Argv

/-!
# The command line round-trips

`quote_argument` and the parser are followed unit by unit: from where the encoder stands with `k`
undecided backslashes, the parser takes what the encoder still writes to the end of the argument.

A backslash means itself unless a quote follows the backslashes it stands among, so neither side can
decide about one when it comes to it. The encoder holds them back and counts, and writes them twice
before a quote and before the closing one; the parser reads a run of them as a whole. The invariant
has to speak of the run that is open on both sides (`parse_quoteLoop`), and the induction is on the
units of the argument with that count free. An argument that is written without quotes is no special
case of it and is treated apart. The program name is taken by other rules, in which a backslash is
nothing special; that is where the condition on the name comes from.
-/

namespace SteamInputLease
namespace Launch

/-! ## The encoder -/

theorem not_needsQuotes {u : UInt16} (h : needsQuotes u = false) :
    u ≠ quote ∧ isBlank u = false := by
  simp only [needsQuotes, Bool.or_eq_false_iff, beq_eq_false_iff_ne] at h
  obtain ⟨⟨⟨⟨hspace, htab⟩, _⟩, _⟩, hquote⟩ := h
  refine ⟨hquote, ?_⟩
  simp [isBlank, space, tab, hspace, htab]

theorem quoteLoop_append : ∀ (value : List UInt16) (k : Nat) (result : List UInt16),
    quoteLoop value k result = result ++ quoteLoop value k [] := by
  intro value
  induction value with
  | nil =>
    intro k result
    simp [quoteLoop]
  | cons unit value ih =>
    intro k result
    unfold quoteLoop
    split
    · exact ih _ _
    · split
      · rw [ih, ih 0 ([] ++ _ ++ _)]
        simp
      · rw [ih, ih 0 ([] ++ _ ++ _)]
        simp

theorem mem_quoteLoop {u : UInt16} : ∀ (value : List UInt16) (k : Nat),
    u ∈ quoteLoop value k [] → u ∈ value ∨ u = backslash ∨ u = quote := by
  intro value
  induction value with
  | nil =>
    intro k hu
    simp only [quoteLoop, List.nil_append, List.mem_append, List.mem_replicate,
      List.mem_singleton] at hu
    rcases hu with ⟨_, hu⟩ | hu
    · exact .inr (.inl hu)
    · exact .inr (.inr hu)
  | cons unit value ih =>
    intro k hu
    unfold quoteLoop at hu
    split at hu
    · rcases ih _ hu with h | h
      · exact .inl (List.mem_cons_of_mem _ h)
      · exact .inr h
    · split at hu <;>
      · rw [quoteLoop_append, List.nil_append] at hu
        rcases List.mem_append.mp hu with hu | hu
        · rcases List.mem_append.mp hu with hu | hu
          · exact .inr (.inl (List.mem_replicate.mp hu).2)
          · rw [List.mem_singleton.mp hu]
            exact .inl List.mem_cons_self
        · rcases ih _ hu with h | h
          · exact .inl (List.mem_cons_of_mem _ h)
          · exact .inr h

/-- Quoting adds backslashes, quotes and nothing else. -/
theorem mem_quoteArgument {u : UInt16} {value : List UInt16} (hu : u ∈ quoteArgument value) :
    u ∈ value ∨ u = backslash ∨ u = quote := by
  unfold quoteArgument at hu
  split at hu
  · simp only [List.mem_cons, List.not_mem_nil, or_false, or_self] at hu
    exact .inr (.inr hu)
  · split at hu
    · exact .inl hu
    · rw [quoteLoop_append] at hu
      rcases List.mem_append.mp hu with hu | hu
      · exact .inr (.inr (List.mem_singleton.mp hu))
      · exact mem_quoteLoop value 0 hu

theorem quoteArgument_ne_nil (value : List UInt16) : quoteArgument value ≠ [] := by
  unfold quoteArgument
  split
  · simp
  · next he =>
    split
    · simpa using he
    · rw [quoteLoop_append]
      simp

theorem quoteArgument_not_nul {value : List UInt16} (h : (0 : UInt16) ∉ value) :
    ∀ u ∈ quoteArgument value, (u != 0) = true := by
  intro u hu
  rw [bne_iff_ne]
  rintro rfl
  rcases mem_quoteArgument hu with hu | hu | hu
  · exact h hu
  · exact absurd hu (by decide)
  · exact absurd hu (by decide)

/-- Without a quote in it and a backslash at its end, an argument stands between its quotes as
    it is. -/
theorem quoteLoop_plain : ∀ (value : List UInt16) (k : Nat), quote ∉ value →
    (List.replicate k backslash ++ value).getLast? ≠ some backslash →
    quoteLoop value k [] = List.replicate k backslash ++ value ++ [quote] := by
  intro value
  induction value with
  | nil =>
    intro k _ hlast
    cases k with
    | zero => rfl
    | succ k =>
      refine absurd ?_ hlast
      simp [List.getLast?_replicate]
  | cons unit value ih =>
    intro k hq hlast
    have hq' : quote ∉ value := fun h => hq (List.mem_cons_of_mem _ h)
    unfold quoteLoop
    split
    · next hu =>
      subst hu
      have hmove : List.replicate k backslash ++ backslash :: value =
          List.replicate (k + 1) backslash ++ value := by
        rw [List.replicate_succ', List.append_assoc]
        rfl
      rw [hmove] at hlast ⊢
      exact ih (k + 1) hq' hlast
    · have hu : unit ≠ quote := by
        intro h
        exact hq (h ▸ List.mem_cons_self)
      rw [if_neg hu, quoteLoop_append, ih 0 hq' (fun h => hlast ?_)]
      · simp
      · rw [List.replicate_zero, List.nil_append] at h
        simp [List.getLast?_append, List.getLast?_cons, h]

/-! ## The parser -/

@[simp] theorem quote_ne_backslash : quote ≠ backslash := by decide

@[simp] theorem space_ne_backslash : space ≠ backslash := by decide

@[simp] theorem space_ne_quote : space ≠ quote := by decide

@[simp] theorem isBlank_space : isBlank space = true := rfl

/-- Outside quotes a space separates, whatever stands before it. -/
theorem parseInside_space {k : Nat} {a : List UInt16} : parseInside false k a space = none := by
  simp [parseInside]

section

variable {stay quoted : Bool} {k : Nat} {a rest : List UInt16} {u : UInt16}

theorem parse_goes {p : Parse} (h : parseInside quoted k a u = some p) :
    parseArguments stay (.inside quoted k a) (u :: rest) = parseArguments stay p rest := by
  rw [parseArguments, h]

theorem parse_separator :
    parseArguments stay .between (space :: rest) = parseArguments stay .between rest := by
  rw [parseArguments, parseInside_space]

theorem parse_unit (hs : u ≠ backslash) (hq : u ≠ quote) (hb : isBlank u = false ∨ quoted = true) :
    parseArguments stay (.inside quoted k a) (u :: rest) =
      parseArguments stay (.inside quoted 0 (a ++ List.replicate k backslash ++ [u])) rest := by
  have hend : (isBlank u && !quoted) = false := by
    rcases hb with hb | hb <;> simp [hb]
  apply parse_goes
  simp [parseInside, hs, hq, hend]

theorem parse_backslash :
    parseArguments stay (.inside quoted k a) (backslash :: rest) =
      parseArguments stay (.inside quoted (k + 1) a) rest :=
  parse_goes rfl

theorem parse_backslashes (n : Nat) : ∀ k : Nat,
    parseArguments stay (.inside quoted k a) (List.replicate n backslash ++ rest) =
      parseArguments stay (.inside quoted (k + n) a) rest := by
  induction n with
  | zero =>
    intro k
    rfl
  | succ n ih =>
    intro k
    rw [List.replicate_succ, List.cons_append, parse_backslash, ih, Nat.add_right_comm,
      Nat.add_assoc]

/-- `2n + 1` backslashes before a quote are `n` backslashes and the quote. -/
theorem parse_escaped (n : Nat) :
    parseArguments stay (.inside quoted 0 a)
        (List.replicate (n * 2 + 1) backslash ++ quote :: rest) =
      parseArguments stay
        (.inside quoted 0 (a ++ List.replicate n backslash ++ [quote])) rest := by
  rw [parse_backslashes, Nat.zero_add]
  have hodd : (n * 2 + 1) % 2 = 1 := by omega
  have hhalf : (n * 2 + 1) / 2 = n := by omega
  apply parse_goes
  simp [parseInside, hodd, hhalf]

/-- `2n` backslashes before the quote that ends quoting are `n` backslashes. -/
theorem parse_closing (n : Nat) :
    parseArguments stay (.inside true 0 a)
        (List.replicate (n * 2) backslash ++ quote :: rest) =
      parseArguments stay (.closing (a ++ List.replicate n backslash)) rest := by
  rw [parse_backslashes, Nat.zero_add]
  have hhalf : n * 2 / 2 = n := by omega
  apply parse_goes
  simp [parseInside, hhalf]

/-- An argument ends here: with the line or at a space. -/
def Ends (rest : List UInt16) : Prop := rest = [] ∨ ∃ more, rest = space :: more

theorem parse_ends (h : Ends rest) :
    parseArguments stay (.inside false k a) rest =
      (a ++ List.replicate k backslash) :: parseArguments stay .between rest := by
  obtain rfl | ⟨more, rfl⟩ := h
  · rfl
  · rw [parse_separator, parseArguments, parseInside_space]

theorem parse_closed (h : Ends rest) :
    parseArguments stay (.closing a) rest = a :: parseArguments stay .between rest := by
  obtain rfl | ⟨more, rfl⟩ := h
  · rfl
  · rw [parse_separator, parseArguments, if_neg space_ne_quote, parseInside_space]

theorem parse_opening :
    parseArguments stay (.inside false 0 a) (quote :: rest) =
      parseArguments stay (.inside true 0 a) rest := by
  apply parse_goes
  simp [parseInside]

/-- Outside an argument a unit that does not separate begins one. -/
theorem parse_between (hb : isBlank u = false) :
    parseArguments stay .between (u :: rest) =
      parseArguments stay (.inside false 0 []) (u :: rest) := by
  cases hp : parseInside false 0 [] u with
  | some p => rw [parse_goes hp, parseArguments, hp]
  | none =>
    simp only [parseInside, hb] at hp
    split at hp
    · cases hp
    · split at hp <;> simp at hp

/-! ## One argument -/

/-- **The parser undoes the encoder's loop**, whatever backslashes are undecided. -/
theorem parse_quoteLoop : ∀ (value : List UInt16) (k : Nat) (a : List UInt16),
    parseArguments stay (.inside true 0 a) (quoteLoop value k [] ++ rest) =
      parseArguments stay (.closing (a ++ List.replicate k backslash ++ value)) rest := by
  intro value
  induction value with
  | nil =>
    intro k a
    show parseArguments stay _ ((List.replicate (k * 2) backslash ++ [quote]) ++ rest) = _
    rw [List.append_assoc, List.singleton_append, parse_closing, List.append_nil]
  | cons unit value ih =>
    intro k a
    unfold quoteLoop
    split
    · next hu =>
      -- one more undecided backslash
      rw [ih, hu, List.replicate_succ', ← List.append_assoc, List.append_assoc _ [backslash] value]
      rfl
    · next hu =>
      split
      · next hq =>
        rw [quoteLoop_append, List.nil_append, List.append_assoc, List.append_assoc,
          List.singleton_append, hq, parse_escaped, ih]
        simp
      · next hq =>
        rw [quoteLoop_append, List.nil_append, List.append_assoc, List.append_assoc,
          parse_backslashes, List.singleton_append, parse_unit hu hq (.inr rfl), ih]
        simp

/-- An argument none of whose units needs quotes stands for itself. -/
theorem parse_plain (hr : Ends rest) : ∀ (value : List UInt16) (k : Nat) (a : List UInt16),
    value.any needsQuotes = false →
    parseArguments stay (.inside false k a) (value ++ rest) =
      (a ++ List.replicate k backslash ++ value) :: parseArguments stay .between rest := by
  intro value
  induction value with
  | nil =>
    intro k a _
    rw [List.nil_append, List.append_nil]
    exact parse_ends hr
  | cons unit value ih =>
    intro k a hv
    rw [List.any_cons, Bool.or_eq_false_iff] at hv
    obtain ⟨hq, hb⟩ := not_needsQuotes hv.1
    by_cases hu : unit = backslash
    · rw [List.cons_append, hu, parse_backslash, ih _ _ hv.2, List.replicate_succ']
      simp
    · rw [List.cons_append, parse_unit hu hq (.inl hb), ih _ _ hv.2]
      simp

/-- **One argument round-trips**, with the rest of the line. -/
theorem parse_quoteArgument (hr : Ends rest) (value : List UInt16) :
    parseArguments stay .between (quoteArgument value ++ rest) =
      value :: parseArguments stay .between rest := by
  -- between quotes, also the empty argument
  have hquoted : parseArguments stay .between (quote :: (quoteLoop value 0 [] ++ rest)) =
      value :: parseArguments stay .between rest := by
    rw [parse_between (by decide), parse_opening, parse_quoteLoop, parse_closed hr]
    rfl
  unfold quoteArgument
  split
  · next he =>
    rw [List.isEmpty_iff.mp he] at hquoted ⊢
    exact hquoted
  · next he =>
    split
    · next hp =>
      have hv : value.any needsQuotes = false := by simpa using hp
      cases value with
      | nil => exact absurd rfl he
      | cons unit value =>
        have hb := (not_needsQuotes (Bool.or_eq_false_iff.mp hv).1).2
        rw [List.cons_append, parse_between hb, ← List.cons_append, parse_plain hr _ 0 [] hv]
        rfl
    · rw [quoteLoop_append, List.append_assoc]
      exact hquoted

end

/-! ## The line -/

theorem joinLoop_eq : ∀ (arguments : List (List UInt16)) (line : List UInt16), line ≠ [] →
    joinLoop arguments line = line ++ arguments.flatMap fun a => space :: quoteArgument a := by
  intro arguments
  induction arguments with
  | nil =>
    intro line _
    simp [joinLoop]
  | cons argument arguments ih =>
    intro line hne
    unfold joinLoop
    rw [if_neg (by simpa using hne), ih _ (by simp)]
    simp

theorem ends_flatMap (arguments : List (List UInt16)) :
    Ends (arguments.flatMap fun a => space :: quoteArgument a) := by
  cases arguments with
  | nil => exact .inl rfl
  | cons argument arguments => exact .inr ⟨_, List.cons_append⟩

theorem parse_arguments {stay : Bool} (arguments : List (List UInt16)) :
    parseArguments stay .between (arguments.flatMap fun a => space :: quoteArgument a) =
      arguments := by
  induction arguments with
  | nil => rfl
  | cons argument arguments ih =>
    rw [List.flatMap_cons, List.cons_append]
    show parseArguments stay .between
      (quoteArgument argument ++ arguments.flatMap fun a => space :: quoteArgument a) = _
    rw [parse_quoteArgument (ends_flatMap arguments), ih]

/-- The program name, with the arguments behind it. -/
theorem programName_quoteArgument {name rest : List UInt16} (hne : name ≠ []) (hq : quote ∉ name)
    (hlast : name.getLast? ≠ some backslash) (hr : Ends rest) :
    programName (quoteArgument name ++ rest) = (name, rest) := by
  unfold quoteArgument
  rw [if_neg (by simpa using hne)]
  split
  · next hp =>
    have hv : ∀ u ∈ name, isBlank u = false := by
      intro u hu
      have hp : name.any needsQuotes = false := by simpa using hp
      exact (not_needsQuotes (Bool.eq_false_iff.mpr fun h =>
        Bool.eq_false_iff.mp hp (List.any_eq_true.mpr ⟨u, hu, h⟩))).2
    cases name with
    | nil => exact absurd rfl hne
    | cons unit name =>
      have hu : unit ≠ quote := by
        intro h
        exact hq (h ▸ List.mem_cons_self)
      rw [List.cons_append]
      unfold programName
      dsimp only
      rw [if_neg hu, ← List.cons_append,
        List.takeWhile_append_of_pos (by simpa using hv),
        List.dropWhile_append_of_pos (by simpa using hv)]
      obtain rfl | ⟨more, rfl⟩ := hr
      · simp
      · simp
  · have hq' : ∀ u ∈ name, (u != quote) = true := by
      intro u hu
      rw [bne_iff_ne]
      exact fun h => hq (h ▸ hu)
    rw [quoteLoop_append, quoteLoop_plain name 0 hq (by simpa using hlast)]
    show programName (quote :: (name ++ [quote] ++ rest)) = _
    unfold programName
    dsimp only
    rw [if_pos rfl, List.append_assoc, List.takeWhile_append_of_pos hq',
      List.dropWhile_append_of_pos hq']
    simp

/-- What `wide_command` accepts: the command itself, which has a name and no NUL. -/
theorem wideCommand_eq_ok {command arguments : List (List UInt16)}
    (h : wideCommand command = .ok arguments) :
    arguments = command ∧ (∀ argument ∈ command, (0 : UInt16) ∉ argument) ∧
      ∃ name rest, command = name :: rest ∧ name ≠ [] := by
  unfold wideCommand at h
  split at h
  · cases h
  · cases h
  · next hnil hempty =>
    split at h
    · cases h
    · next hnul =>
      cases h
      refine ⟨rfl, ?_, ?_⟩
      · simpa using hnul
      · cases command with
        | nil => exact absurd rfl hnil
        | cons name rest => exact ⟨name, rest, rfl, fun hn => hempty rest (by rw [hn])⟩

theorem commandLine_readOff {command arguments : List (List UInt16)}
    (haccepted : wideCommand command = .ok arguments) :
    ReadOff (commandLine arguments) command := by
  obtain ⟨rfl, hnul, name, rest, rfl, hne⟩ := wideCommand_eq_ok haccepted
  intro hname stay
  obtain ⟨hq, hlast⟩ := hname name rfl
  have hline : joinLoop (name :: rest) [] =
      quoteArgument name ++ rest.flatMap fun a => space :: quoteArgument a := by
    show joinLoop rest (quoteArgument name) = _
    exact joinLoop_eq rest _ (quoteArgument_ne_nil name)
  have hterminated : (commandLine (name :: rest)).takeWhile (· != 0) =
      joinLoop (name :: rest) [] := by
    have hunits : ∀ u ∈ joinLoop (name :: rest) [], (u != 0) = true := by
      intro u hu
      rw [hline] at hu
      rcases List.mem_append.mp hu with hu | hu
      · exact quoteArgument_not_nul (hnul name List.mem_cons_self) u hu
      · obtain ⟨argument, ha, hu⟩ := List.mem_flatMap.mp hu
        rcases List.mem_cons.mp hu with rfl | hu
        · rfl
        · exact quoteArgument_not_nul (hnul argument (List.mem_cons_of_mem _ ha)) u hu
    unfold commandLine
    rw [List.takeWhile_append_of_pos hunits]
    simp
  unfold commandLineToArgv
  rw [hterminated, hline, programName_quoteArgument hne hq hlast (ends_flatMap rest)]
  show name :: parseArguments stay .between _ = _
  rw [parse_arguments]

/-- **Command lines round-trip**: a program that takes its command line apart by the
    documented rules gets the command back, if the program's name has no quote in it and no
    backslash at its end. -/
theorem commandLine_roundTrip (stay : Bool) {command arguments : List (List UInt16)}
    (haccepted : wideCommand command = .ok arguments)
    (hname : ∀ name ∈ command.head?, quote ∉ name ∧ name.getLast? ≠ some backslash) :
    commandLineToArgv stay (commandLine arguments) = command :=
  commandLine_readOff haccepted hname stay

/-- A name with a space, then `s "h"\`, an empty argument, and backslashes around a tab. -/
theorem commandLine_roundTrip_sample :
    commandLineToArgv true (commandLine
        [[67, space, 68], [115, space, quote, 104, quote, backslash], [],
          [backslash, tab, backslash, backslash]]) =
      [[67, space, 68], [115, space, quote, 104, quote, backslash], [],
        [backslash, tab, backslash, backslash]] := by
  apply commandLine_roundTrip true rfl
  intro name hn
  rw [List.head?_cons, Option.mem_def, Option.some.injEq] at hn
  subst hn
  decide

end Launch
end SteamInputLease
