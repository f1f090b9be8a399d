import Mathlib.Data.List.Induction
import SteamInputLease.Launch.Cli
import SteamInputLease.Proof.Launch.Environment
import SteamInputLease.Proof.Launch.Run

/-!
# What a command line says

An argument is a word of the launcher's own just when its units are, so the loop takes the options
apart one by one and stops at the first argument that is none. Whatever the arguments, they are
options and a tail.

`parse` sets variables as it goes and decides at the end. The statement is the other way round: it
takes the options of the command line as a list of `Item`s, and says what is returned of that list
as a whole. So `Summary` relates the variables behind a list of items to the list, by induction from
its end, since of each option the last one counts; and the decisions are then read off a summary
without the loop. What stops the loop is an argument that is no option, the separator, or an option
whose value is missing or not readable, and these are the tails.
-/

namespace SteamInputLease
namespace Launch

open Lib

/-! ## Words -/

/-- A text that is read strictly is what the lossy conversion reads, -/
theorem fromUtf16Lossy_of_toStr {units : List UInt16} {text : List Char}
    (h : toStr units = some text) : fromUtf16Lossy units = text := by
  fun_induction toStr units generalizing text with
  | case1 =>
    cases h
    rfl
  | case2 unit hlone => cases h
  | case3 unit hlone =>
    cases h
    rw [fromUtf16Lossy, if_neg hlone]
  | case4 unit next rest hpair ih =>
    obtain ⟨more, hmore, rfl⟩ := Option.map_eq_some_iff.mp h
    rw [fromUtf16Lossy, if_pos hpair, ih hmore]
  | case5 unit next rest hpair hlone => cases h
  | case6 unit next rest hpair hlone ih =>
    obtain ⟨more, hmore, rfl⟩ := Option.map_eq_some_iff.mp h
    rw [fromUtf16Lossy, if_neg hpair, if_neg hlone, ih hmore]

/-- and one in which nothing was replaced is read strictly too. -/
theorem toStr_of_fromUtf16Lossy {units : List UInt16}
    (h : replacementCharacter ∉ fromUtf16Lossy units) :
    toStr units = some (fromUtf16Lossy units) := by
  fun_induction fromUtf16Lossy units with
  | case1 => rfl
  | case2 unit hlone => exact absurd List.mem_cons_self h
  | case3 unit hlone => rw [toStr, if_neg hlone]
  | case4 unit next rest hpair ih =>
    rw [toStr, if_pos hpair, ih fun hmem => h (List.mem_cons_of_mem _ hmem), Option.map_some]
  | case5 unit next rest hpair hlone ih => exact absurd List.mem_cons_self h
  | case6 unit next rest hpair hlone ih =>
    rw [toStr, if_neg hpair, if_neg hlone, ih fun hmem => h (List.mem_cons_of_mem _ hmem),
      Option.map_some]

theorem toStr_eq_ascii {units : List UInt16} {text : List Char}
    (htext : ∀ c ∈ text, c.toNat < 128) : toStr units = some text ↔ units = asciiUnits text := by
  rw [← fromUtf16Lossy_eq_ascii htext]
  constructor
  · exact fromUtf16Lossy_of_toStr
  · rintro rfl
    refine toStr_of_fromUtf16Lossy fun hmem => ?_
    exact absurd (htext _ hmem) (by decide)

theorem toStr_eq_word {argument : List UInt16} {text : String}
    (h : text.toList.all (fun c => decide (c.toNat < 128)) = true) :
    toStr argument = some text.toList ↔ argument = word text :=
  toStr_eq_ascii (by simpa only [List.all_eq_true, decide_eq_true_eq] using h)

theorem toStr_word (text : String)
    (h : text.toList.all (fun c => decide (c.toNat < 128)) = true) :
    toStr (word text) = some text.toList := (toStr_eq_word h).mpr rfl

/-! ## One option -/

/-- What an option does to the variables of `parse`. -/
def Item.apply (s : Locals) : Item → Locals
  | .status => { s with status := true }
  | .rescan => { s with rescan := true }
  | .inject => { s with options := { s.options with allowInjection := true } }
  | .help _ => { s with help := true }
  | .targetName _ name _ => { s with options := { s.options with targetName := name } }
  | .payload path => { s with payload := some path }

theorem parseLoop_item (item : Item) (rest : List (List UInt16)) (s : Locals) :
    parseLoop (item.words ++ rest) s = parseLoop rest (item.apply s) := by
  cases item with
  | status =>
    rw [Item.words, List.singleton_append, parseLoop.eq_def]
    simp [toStr_word "--status" rfl, Item.apply]
  | rescan =>
    rw [Item.words, List.singleton_append, parseLoop.eq_def]
    simp [toStr_word "--rescan" rfl, Item.apply]
  | inject =>
    rw [Item.words, List.singleton_append, parseLoop.eq_def]
    simp [toStr_word "--inject" rfl, Item.apply]
  | help long =>
    rw [Item.words, List.singleton_append, parseLoop.eq_def]
    cases long with
    | true => simp [toStr_word "--help" rfl, Item.apply]
    | false => simp [toStr_word "-h" rfl, Item.apply]
  | targetName value name hvalid =>
    rw [Item.words, List.cons_append, parseLoop.eq_def]
    simp [toStr_word "--target-name" rfl, hvalid, Item.apply]
  | payload path =>
    rw [Item.words, List.cons_append, parseLoop.eq_def]
    simp [toStr_word "--payload" rfl, Item.apply]

theorem parseLoop_items (items : List Item) (rest : List (List UInt16)) : ∀ s : Locals,
    parseLoop (items.flatMap Item.words ++ rest) s =
      parseLoop rest (items.foldl (fun s item => item.apply s) s) := by
  induction items with
  | nil => exact fun _ => rfl
  | cons item items ih =>
    intro s
    rw [List.flatMap_cons, List.append_assoc, parseLoop_item, ih]
    rfl

/-- The loop stops at a tail. -/
theorem parseLoop_tail {rest : List (List UInt16)}
    {tail : Except String (Option (List (List UInt16)))} (h : Tail rest tail) {s : Locals}
    (hs : s.command = none) :
    parseLoop rest s = tail.map fun command => { s with command := command } := by
  cases h with
  | nothing => rw [parseLoop, Except.map, ← hs]
  | command command =>
    rw [parseLoop.eq_def]
    simp [toStr_word "--" rfl, Except.map]
  | unknown argument rest h =>
    have hnot : ∀ text : String, word text ∈ optionWords →
        text.toList.all (fun c => decide (c.toNat < 128)) = true →
        toStr argument ≠ some text.toList := by
      intro text hmem hascii htext
      rw [toStr_eq_word hascii] at htext
      exact h (htext ▸ hmem)
    rw [parseLoop.eq_def]
    dsimp only
    rw [if_neg (hnot "--" (by simp [optionWords]) rfl),
      if_neg (hnot "--status" (by simp [optionWords]) rfl),
      if_neg (hnot "--rescan" (by simp [optionWords]) rfl),
      if_neg (hnot "--inject" (by simp [optionWords]) rfl),
      if_neg (hnot "--target-name" (by simp [optionWords]) rfl),
      if_neg (hnot "--payload" (by simp [optionWords]) rfl),
      if_neg (not_or.mpr ⟨hnot "--help" (by simp [optionWords]) rfl,
        hnot "-h" (by simp [optionWords]) rfl⟩)]
    rfl
  | noTargetName =>
    rw [parseLoop.eq_def]
    simp [toStr_word "--target-name" rfl, Except.map]
  | badTargetName value rest h =>
    rw [parseLoop.eq_def]
    simp [toStr_word "--target-name" rfl, h, Except.map]
  | noPayload =>
    rw [parseLoop.eq_def]
    simp [toStr_word "--payload" rfl, Except.map]

/-! ## All options -/

/-- What the variables of `parse` are behind `items`. -/
structure Summary (default : Ffi.ClientOptions) (items : List Item) (s : Locals) : Prop where
  targetName : s.options.targetName = (lastName items).getD default.targetName
  payloadPath : s.options.payloadPath = default.payloadPath
  connectTimeout : s.options.connectTimeout = default.connectTimeout
  allowInjection : s.options.allowInjection = injects default items
  payload : s.payload = lastPath items
  help : s.help = items.any Item.isHelp
  status : s.status = items.any Item.isStatus
  rescan : s.rescan = items.any Item.isRescan
  command : s.command = none

theorem Summary.snoc {default : Ffi.ClientOptions} {items : List Item} {s : Locals}
    (h : Summary default items s) (item : Item) :
    Summary default (items ++ [item]) (item.apply s) := by
  obtain ⟨htarget, hpath, htimeout, hinject, hpayload, hhelp, hstatus, hrescan, hcommand⟩ := h
  cases item <;> constructor <;>
    simp [Item.apply, lastName, lastPath, injects, List.findSome?_cons, Item.name, Item.path,
      Item.isInject, Item.isHelp, Item.isStatus, Item.isRescan, htarget, hpath, htimeout, hinject,
      hpayload, hhelp, hstatus, hrescan, hcommand]

theorem summary (default : Ffi.ClientOptions) (items : List Item) :
    Summary default items (items.foldl (fun s item => item.apply s)
      ⟨default, none, false, false, false, none⟩) := by
  induction items using List.reverseRecOn with
  | nil => constructor <;> simp [lastName, lastPath, injects]
  | append_singleton items item ih =>
    rw [List.foldl_append]
    exact ih.snoc item

theorem parse_of_summary {default : Ffi.ClientOptions} {items : List Item} {s : Locals}
    (h : Summary default items s) (command : Option (List (List UInt16))) :
    (do
      let options ← takePayload { s with command := command }
      let options :=
        if !options.allowInjection then { options with connectTimeout := residentConnectTimeout }
        else options
      let mode ← chooseMode { s with command := command }
      pure (Invocation.mk options mode) : Except String Invocation) =
      conclude default items command := by
  have hmode : chooseMode { s with command := command } = modeOf items command := by
    simp only [chooseMode, modeOf, h.help, h.status, h.rescan]
    cases command with
    | none => simp
    | some command => by_cases hc : command = [] <;> simp [hc]
  obtain ⟨⟨target, path, timeout, inject⟩, payload, help, status, rescan, cmd⟩ := s
  obtain ⟨htarget, hpath, htimeout, hinject, hpayload, hhelp, hstatus, hrescan, hcommand⟩ := h
  dsimp only at htarget hpath htimeout hinject hpayload
  subst htarget hpath htimeout hinject hpayload
  rw [hmode, takePayload, conclude, optionsOf]
  dsimp only
  cases lastPath items with
  | none => cases modeOf items command <;> cases injects default items <;> rfl
  | some path => cases modeOf items command <;> cases injects default items <;> rfl

/-- A reading is what `parse` returns. -/
theorem Reads.parse {default : Ffi.ClientOptions} {arguments : List (List UInt16)}
    {result : Except String Invocation} (h : Reads default arguments result) :
    Launch.parse default arguments = result := by
  obtain ⟨items, rest, tail, htail, rfl, rfl⟩ := h
  have hsummary := summary default items
  rw [Launch.parse, parseLoop_items, parseLoop_tail htail hsummary.command]
  cases tail with
  | error error => rfl
  | ok command => exact parse_of_summary hsummary command

/-- Any arguments are options and a tail. -/
theorem exists_reads (default : Ffi.ClientOptions) (arguments : List (List UInt16)) :
    ∃ result, Reads default arguments result := by
  have hsplit : ∀ (n : Nat) (arguments : List (List UInt16)), arguments.length ≤ n →
      ∃ items rest tail, Tail rest tail ∧ arguments = List.flatMap Item.words items ++ rest := by
    intro n
    induction n with
    | zero =>
      intro arguments hlen
      rw [List.length_eq_zero_iff.mp (Nat.le_zero.mp hlen)]
      exact ⟨[], [], _, .nothing, rfl⟩
    | succ n ih =>
      -- an option, and what the rest was found to be
      have hitem : ∀ (item : Item) (more : List (List UInt16)), more.length ≤ n →
          ∃ items rest tail, Tail rest tail ∧
            item.words ++ more = List.flatMap Item.words items ++ rest := by
        intro item more hmore
        obtain ⟨items, rest, tail, htail, rfl⟩ := ih more hmore
        exact ⟨item :: items, rest, tail, htail, by rw [List.flatMap_cons, List.append_assoc]⟩
      intro arguments hlen
      cases arguments with
      | nil => exact ⟨[], [], _, .nothing, rfl⟩
      | cons argument more =>
        have hmore : more.length ≤ n := Nat.le_of_succ_le_succ hlen
        by_cases hmem : argument ∈ optionWords
        case neg => exact ⟨[], _, _, .unknown argument more hmem, rfl⟩
        simp only [optionWords, List.mem_cons, List.not_mem_nil, or_false] at hmem
        rcases hmem with rfl | rfl | rfl | rfl | rfl | rfl | rfl | rfl
        · exact ⟨[], _, _, .command more, rfl⟩
        · exact hitem .status more hmore
        · exact hitem .rescan more hmore
        · exact hitem .inject more hmore
        · cases more with
          | nil => exact ⟨[], _, _, .noTargetName, rfl⟩
          | cons value more =>
            cases hvalue : toStr value with
            | none => exact ⟨[], _, _, .badTargetName value more hvalue, rfl⟩
            | some name =>
              exact hitem (.targetName value name hvalue) more (Nat.le_of_succ_le hmore)
        · cases more with
          | nil => exact ⟨[], _, _, .noPayload, rfl⟩
          | cons path more => exact hitem (.payload path) more (Nat.le_of_succ_le hmore)
        · exact hitem (.help true) more hmore
        · exact hitem (.help false) more hmore
  obtain ⟨items, rest, tail, htail, harguments⟩ := hsplit _ arguments (Nat.le_refl _)
  exact ⟨_, .intro items rest tail htail harguments rfl⟩

/-- **What a command line says.** Any arguments are options up to the first argument that is none,
    and `parse` returns what these say: of each option the last counts, all behind the separator is
    the command, and the errors are those of the first fault. -/
theorem parse_reads (default : Ffi.ClientOptions) (arguments : List (List UInt16))
    (result : Except String Invocation) :
    parse default arguments = result ↔ Reads default arguments result := by
  refine ⟨?_, Reads.parse⟩
  rintro rfl
  obtain ⟨result, hreads⟩ := exists_reads default arguments
  rwa [hreads.parse]

end Launch
end SteamInputLease
