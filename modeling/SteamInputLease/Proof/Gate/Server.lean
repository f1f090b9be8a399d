import SteamInputLease.Gate.Server

/-!
# What `server_thread` holds, and when it stops

Each helper of the descriptor leaves in hand what it found there: the token is closed and the string
of a SID freed on every path, so only the descriptor comes out. A round of the accept loop gives its
pipe to a worker or closes it. The loop ends at the thirtieth failure in a row and at nothing else.

There are three arguments here, and each goes through the same functions in the order of their
calls. Custody is said with the rules of `Lib.Custody`: what is held before and behind a part, for
every answer. The end of the loop is read off the outcomes of its attempts to create an instance,
which is why the other calls only have to create none (`CreatesNone`); the induction is on the
rounds, with the failures in a row so far as a parameter. And the descriptor is tied to the calls
behind it: `SidOf` tells from the log which of them opened the token, how much of it was read and
what its SID was converted to, so that the text the instances are guarded by is that of the
process's own owner and user and of no other account. Who is admitted by that text is then a matter
of parsing it.
-/

namespace SteamInputLease
namespace Gate

open Lib
open Launch (fromUtf16Lossy)

section

variable {held : Multiset ServerHandle}

/-! ## The descriptor -/

theorem probeRefused_guards (probe : ServerAnswer) :
    serverCustody.Guards (fun _ _ rest => rest = held) (probeRefused probe) held := by
  unfold probeRefused
  split
  · exact .pure rfl
  · exact .look (by simp [serverCustody]) (fun _ => rfl) (fun _ => rfl) fun _ => .pure rfl

/-- A buffer that comes back is long enough for what is read of it, and not huge. -/
theorem readTokenInformation_guards {token : UInt64} {cls : TokenClass} {minimum : Nat}
    (ht : ServerHandle.token token ∈ held) :
    serverCustody.Guards (fun _ r rest => rest = held ∧
        ∀ buffer : List UInt8, r = some buffer →
          minimum ≤ buffer.length ∧ buffer.length ≤ tokenInformationMaxBytes)
      (readTokenInformation token cls minimum) held := by
  have huses : ∀ n, ∀ h ∈ serverCustody.uses (.getTokenInformation token cls n), h ∈ held := by
    intro n h hh
    rw [Multiset.mem_singleton.mp hh]
    exact ht
  unfold readTokenInformation
  refine .look (huses 0) (fun _ => rfl) (fun _ => rfl) fun probe => ?_
  refine .bind (probeRefused_guards probe) fun _ refused rest hrest => ?_
  subst hrest
  split
  · exact .pure ⟨rfl, nofun⟩
  split
  · exact .pure ⟨rfl, nofun⟩
  next hlength =>
    refine .look (huses _) (fun _ => rfl) (fun _ => rfl) fun read => ?_
    split
    · exact .pure ⟨rfl, nofun⟩
    · refine .pure ⟨rfl, ?_⟩
      rintro _ ⟨⟩
      rw [List.length_map, List.length_range]
      omega

theorem sidToString_guards (sid : Nat) :
    serverCustody.Guards (fun _ _ rest => rest = held) (sidToString sid) held := by
  unfold sidToString
  refine .receive (by simp [serverCustody]) (fun _ => rfl) fun text => ?_
  by_cases hr : (!text.ok || text.handle == 0) = true
  · rw [if_pos hr,
      show serverCustody.gives (.convertSidToStringSid sid) text = 0 from if_pos hr, add_zero]
    exact .pure rfl
  · rw [if_neg hr,
      show serverCustody.gives (.convertSidToStringSid sid) text = {.text text.handle} from
        if_neg hr]
    refine .spend (by simp [serverCustody]) (fun _ => rfl) (fun _ => rfl) fun _ => ?_
    split <;> exact .pure rfl

theorem readTokenSid_guards {token : UInt64} (cls : TokenClass)
    (ht : ServerHandle.token token ∈ held) :
    serverCustody.Guards (fun _ _ rest => rest = held) (readTokenSid token cls) held := by
  unfold readTokenSid
  refine .bind (readTokenInformation_guards ht) fun _ r rest hrest => ?_
  obtain rfl := hrest.1
  cases r with
  | none => exact .pure rfl
  | some buffer =>
    show serverCustody.Guards _ (if leNat (buffer.take 8) = 0 then _ else _) _
    split
    · exact .pure rfl
    · exact sidToString_guards _

theorem currentTokenSids_guards :
    serverCustody.Guards (fun _ _ rest => rest = held) currentTokenSids held := by
  unfold currentTokenSids
  refine .receive (by simp [serverCustody]) (fun _ => rfl) fun token => ?_
  by_cases ho : token.ok = true
  · rw [if_neg (by simp [ho]),
      show serverCustody.gives .openProcessToken token = {.token token.handle} from if_pos ho]
    have ht : ServerHandle.token token.handle ∈ held + {.token token.handle} :=
      Multiset.mem_add.mpr (.inr (Multiset.mem_singleton_self _))
    refine .bind (readTokenSid_guards .owner ht) fun _ owner rest hrest => ?_
    subst hrest
    refine .bind (readTokenSid_guards .user ht) fun _ user rest hrest => ?_
    subst hrest
    exact .spend (by simp [serverCustody]) (fun _ => rfl) (fun _ => rfl) fun _ => .pure rfl
  · rw [if_pos (by simpa using ho)]
    rw [show serverCustody.gives .openProcessToken token = 0 from if_neg ho, add_zero]
    exact .pure rfl

theorem buildControlPipeDescriptor_guards :
    serverCustody.Guards (fun _ r rest => rest = held + descriptorHeld r)
      buildControlPipeDescriptor held := by
  unfold buildControlPipeDescriptor
  refine .bind currentTokenSids_guards fun _ r rest hrest => ?_
  subst hrest
  rcases r with _ | ⟨owner, user⟩
  · exact .pure (add_zero _).symm
  · refine .receive (by simp [serverCustody]) (fun _ => rfl) fun converted => ?_
    by_cases hr : (!converted.ok || converted.handle == 0) = true
    · rw [if_pos hr, show serverCustody.gives (.convertStringSecurityDescriptor _) converted = 0
        from if_pos hr]
      exact .pure rfl
    · rw [if_neg hr, show serverCustody.gives (.convertStringSecurityDescriptor _) converted =
        {.descriptor converted.handle} from if_neg hr]
      exact .pure rfl

/-! ## The accept loop -/

theorem connectPipeInstance_guards {pipe : UInt64} (hp : ServerHandle.pipe pipe ∈ held) :
    serverCustody.Guards (fun _ _ rest => rest = held) (connectPipeInstance pipe) held := by
  unfold connectPipeInstance
  refine .look ?_ (fun _ => rfl) (fun _ => rfl) fun connected => ?_
  · intro h hh
    rw [Multiset.mem_singleton.mp hh]
    exact hp
  split
  · exact .pure rfl
  · exact .look (by simp [serverCustody]) (fun _ => rfl) (fun _ => rfl) fun _ => .pure rfl

/-- A round keeps nothing of the pipe it created. -/
theorem handOver_guards (pipe : UInt64) :
    serverCustody.Guards (fun _ _ rest => rest = held) (handOver pipe) (held + {.pipe pipe}) := by
  have hp : ServerHandle.pipe pipe ∈ held + {.pipe pipe} :=
    Multiset.mem_add.mpr (.inr (Multiset.mem_singleton_self _))
  unfold handOver
  refine .bind (connectPipeInstance_guards hp) fun _ connected rest hrest => ?_
  subst hrest
  split
  · exact .spend (by simp [serverCustody]) (fun _ => rfl) (fun _ => rfl) fun _ => .pure rfl
  refine .ask ?_ fun worker => ?_
  · intro h hh
    rw [Multiset.mem_singleton.mp hh]
    exact hp
  by_cases hw : worker.handle = 0
  · -- the pipe is still the server's
    have htakes : serverCustody.takes (.createThread pipe) worker = 0 := if_pos hw
    have hgives : serverCustody.gives (.createThread pipe) worker = 0 := if_pos hw
    rw [if_pos hw, Custody.next, htakes, hgives, tsub_zero, add_zero]
    refine ⟨Multiset.zero_le _, .look ?_ (fun _ => rfl) (fun _ => rfl) fun _ => ?_⟩
    · intro h hh
      rw [Multiset.mem_singleton.mp hh]
      exact hp
    · exact .spend (by simp [serverCustody]) (fun _ => rfl) (fun _ => rfl) fun _ => .pure rfl
  · have htakes : serverCustody.takes (.createThread pipe) worker = {.pipe pipe} := if_neg hw
    have hgives : serverCustody.gives (.createThread pipe) worker = {.worker worker.handle} :=
      if_neg hw
    rw [if_neg hw, Custody.next, htakes, hgives, add_tsub_cancel_right]
    exact ⟨Multiset.le_add_left _ _,
      .spend (by simp [serverCustody]) (fun _ => rfl) (fun _ => rfl) fun _ => .pure rfl⟩

theorem acceptLoop_guards {descriptor : Option UInt64} (rounds : Nat)
    (hd : descriptorHeld descriptor ≤ held) (pipeFailures : Nat) :
    serverCustody.Guards (fun _ _ rest => rest = held) (acceptLoop descriptor rounds pipeFailures)
      held := by
  induction rounds generalizing pipeFailures with
  | zero => exact .pure rfl
  | succ rounds ih =>
    refine .receive ?_ (fun _ => rfl) fun pipe => ?_
    · intro h hh
      cases descriptor with
      | none => simp [serverCustody] at hh
      | some d => exact Multiset.mem_of_le hd hh
    by_cases hi : pipe.handle = invalidHandleValue
    · rw [if_pos hi, show serverCustody.gives (.createNamedPipe descriptor) pipe = 0 from if_pos hi,
        add_zero]
      split
      · exact .pure rfl
      · exact .look (by simp [serverCustody]) (fun _ => rfl) (fun _ => rfl) fun _ => ih _
    · rw [if_neg hi, show serverCustody.gives (.createNamedPipe descriptor) pipe =
        {.pipe pipe.handle} from if_neg hi]
      refine .bind (handOver_guards pipe.handle) fun _ _ rest hrest => ?_
      subst hrest
      exact ih 0

theorem serverThread_guards (rounds : Nat) :
    serverCustody.Guards (fun _ r rest => (r ≠ none → rest = 0) ∧ ∃ d, rest = descriptorHeld d)
      (serverThread rounds) 0 := by
  unfold serverThread
  refine .bind buildControlPipeDescriptor_guards fun _ built rest hrest => ?_
  rw [zero_add] at hrest
  subst hrest
  refine .bind (acceptLoop_guards rounds (le_refl _) 0) fun _ r rest hrest => ?_
  subst hrest
  cases r with
  | none => exact .pure ⟨fun h => absurd rfl h, built, rfl⟩
  | some code =>
    cases built with
    | none => exact .pure ⟨fun _ => rfl, none, rfl⟩
    | some d =>
      show serverCustody.Guards _ _ {.descriptor d}
      rw [← zero_add ({.descriptor d} : Multiset ServerHandle)]
      refine .spend (by simp [serverCustody]) (fun _ => rfl) (fun _ => rfl) fun _ => ?_
      exact .pure ⟨fun _ => rfl, none, rfl⟩

/-- However Windows answers, for any number of rounds: the server names only what it holds and
    gives back only what it holds; it holds at most its descriptor while it listens and nothing
    when it has returned. So every pipe it created it closed or gave to one worker, and every
    token, string and worker handle it closed once. -/
theorem server_custody (rounds : Nat) (answers : Nat → ServerAnswer) :
    ∃ rest, serverCustody.Along 0 ((serverThread rounds).run answers).1 rest ∧
      (((serverThread rounds).run answers).2 ≠ none → rest = 0) ∧
      (∃ d, rest = descriptorHeld d) ∧
      (((serverThread rounds).run answers).1.map fun e => serverCustody.gives e.1 e.2).sum =
        (((serverThread rounds).run answers).1.map fun e => serverCustody.takes e.1 e.2).sum +
          rest := by
  obtain ⟨rest, halong, hnone, hd⟩ := (serverThread_guards rounds).along.run answers
  have hbalance := halong.balance
  rw [zero_add] at hbalance
  exact ⟨rest, halong, hnone, hd, hbalance⟩

end

/-! ## When the loop stops -/

/-- Not an attempt to create an instance. -/
def ServerCall.createsNone : ServerCall → Prop
  | .createNamedPipe _ => False
  | _ => True

/-- A part that creates no instance. -/
def CreatesNone (log : List (ServerCall × ServerAnswer)) : Prop := ∀ e ∈ log, e.1.createsNone

theorem creation_none {e : ServerCall × ServerAnswer} (h : e.1.createsNone) :
    creationFailed e = none ∧ creationDescriptor e = none := by
  obtain ⟨c, a⟩ := e
  cases c with
  | createNamedPipe d => exact h.elim
  | _ => exact ⟨rfl, rfl⟩

theorem CreatesNone.creations {log : List (ServerCall × ServerAnswer)} (h : CreatesNone log) :
    creations log = [] ∧ usedDescriptors log = [] :=
  ⟨List.filterMap_eq_nil_iff.mpr fun e he => (creation_none (h e he)).1,
    List.filterMap_eq_nil_iff.mpr fun e he => (creation_none (h e he)).2⟩

theorem creations_append (log rest : List (ServerCall × ServerAnswer)) :
    creations (log ++ rest) = creations log ++ creations rest ∧
      usedDescriptors (log ++ rest) = usedDescriptors log ++ usedDescriptors rest :=
  ⟨List.filterMap_append, List.filterMap_append⟩

/-- One more attempt at the front. -/
theorem LoopEnd.cons {descriptor : Option UInt64} {rounds streak : Nat} {a : ServerAnswer}
    {between log : List (ServerCall × ServerAnswer)} {r : Option UInt32}
    (hstreak : streak < pipeCreateMaxFailures) (hb : CreatesNone between)
    (h : LoopEnd descriptor rounds (failStreak streak (a.handle == invalidHandleValue)) log r) :
    LoopEnd descriptor (rounds + 1) streak ((.createNamedPipe descriptor, a) :: (between ++ log))
      r := by
  obtain ⟨hc, hu⟩ := hb.creations
  obtain ⟨hca, hua⟩ := creations_append between log
  rw [hc, List.nil_append] at hca
  rw [hu, List.nil_append] at hua
  have hcs : creations ((.createNamedPipe descriptor, a) :: (between ++ log)) =
      (a.handle == invalidHandleValue) :: creations log := by
    rw [← hca]
    rfl
  have hus : usedDescriptors ((.createNamedPipe descriptor, a) :: (between ++ log)) =
      descriptor :: usedDescriptors log := by
    rw [← hua]
    rfl
  refine ⟨?_, ?_, ?_, ?_⟩
  · rw [hus]
    intro d hd
    rcases List.mem_cons.mp hd with rfl | hd
    · rfl
    · exact h.descriptors d hd
  · rw [hcs]
    intro before after he hne
    cases before with
    | nil => exact hstreak
    | cons b before =>
      rw [List.cons_append, List.cons.injEq] at he
      obtain ⟨rfl, he⟩ := he
      exact h.running before after he hne
  · rw [hcs]
    exact h.stopped
  · rw [hcs]
    intro hr
    obtain ⟨hlen, hlt⟩ := h.listening hr
    exact ⟨by rw [List.length_cons, hlen], hlt⟩

/-- Calls around the loop that create no instance. -/
theorem LoopEnd.around {descriptor : Option UInt64} {rounds streak : Nat}
    {before log after : List (ServerCall × ServerAnswer)} {r : Option UInt32}
    (h : LoopEnd descriptor rounds streak log r) (hb : CreatesNone before)
    (ha : CreatesNone after) :
    LoopEnd descriptor rounds streak (before ++ (log ++ after)) r := by
  obtain ⟨hc, hu⟩ := creations_append before (log ++ after)
  obtain ⟨hc', hu'⟩ := creations_append log after
  rw [hb.creations.1, List.nil_append, hc', ha.creations.1, List.append_nil] at hc
  rw [hb.creations.2, List.nil_append, hu', ha.creations.2, List.append_nil] at hu
  exact ⟨hu ▸ h.descriptors, hc ▸ h.running, hc ▸ h.stopped, hc ▸ h.listening⟩

theorem handOver_createsNone (pipe : UInt64) :
    (handOver pipe).Only ServerCall.createsNone := by
  unfold handOver
  refine .bind ?_ fun connected => ?_
  · unfold connectPipeInstance
    refine .ask trivial fun connected => ?_
    split
    · exact .pure _
    · exact .ask trivial fun _ => .pure _
  split
  · exact .ask trivial fun _ => .pure _
  refine .ask trivial fun worker => ?_
  split
  · exact .ask trivial fun _ => .ask trivial fun _ => .pure _
  · exact .ask trivial fun _ => .pure _

theorem acceptLoop_ends (descriptor : Option UInt64) (rounds streak : Nat)
    (hstreak : streak < pipeCreateMaxFailures) :
    (acceptLoop descriptor rounds streak).Yields (LoopEnd descriptor rounds streak) := by
  induction rounds generalizing streak with
  | zero =>
    refine .pure ⟨nofun, ?_, nofun, fun _ => ⟨rfl, hstreak⟩⟩
    intro before after he hne
    exact absurd (List.append_eq_nil_iff.mp he.symm).2 hne
  | succ rounds ih =>
    refine .ask fun pipe => ?_
    by_cases hi : pipe.handle = invalidHandleValue
    · rw [if_pos hi]
      have hfailed : failStreak streak (pipe.handle == invalidHandleValue) = streak + 1 := by
        simp [failStreak, hi]
      split
      · next hmax =>
        -- this failure is the thirtieth
        have hcs : creations [(.createNamedPipe descriptor, pipe)] =
            [pipe.handle == invalidHandleValue] := rfl
        refine .pure ⟨?_, ?_, ?_, nofun⟩
        · intro d hd
          exact List.mem_singleton.mp hd
        · rw [hcs]
          intro before after he hne
          cases before with
          | nil => exact hstreak
          | cons b before =>
            rw [List.cons_append, List.cons.injEq] at he
            exact absurd (List.append_eq_nil_iff.mp he.2.symm).2 hne
        · rintro _ ⟨⟩
          refine ⟨rfl, ?_⟩
          rw [hcs, List.foldl_cons, hfailed, List.foldl_nil]
          omega
      · next hmax =>
        refine .ask fun a => (ih (streak + 1) (by omega)).imp fun log r h => ?_
        rw [← hfailed] at h
        have hsleeps : CreatesNone [(.sleep, a)] := by simp [CreatesNone, ServerCall.createsNone]
        exact h.cons hstreak hsleeps
    · rw [if_neg hi]
      have hcreated : failStreak streak (pipe.handle == invalidHandleValue) = 0 := by
        simp [failStreak, hi]
      refine .bind (handOver_createsNone pipe.handle) fun between _ hb => ?_
      refine (ih 0 (by decide)).imp fun log r h => ?_
      rw [← hcreated] at h
      exact h.cons hstreak hb

/-! ## The descriptor that was built

`SidOf` reads off the log what became of a SID; each helper of the descriptor ends with just what
its own calls tell. -/

theorem SidOf.mono {token : UInt64} {cls : TokenClass} {log log' : List (ServerCall × ServerAnswer)}
    {sid : Option (List Char)} (h : SidOf token cls log sid) (hle : log <:+: log') :
    SidOf token cls log' sid := by
  cases h with
  | refused hcalls hprobe hlast => exact .refused (hcalls.trans hle) hprobe hlast
  | unfit hcalls hlength => exact .unfit (hcalls.trans hle) hlength
  | unread hcalls hn hread => exact .unread (hcalls.trans hle) hn hread
  | null hcalls hn hsid => exact .null (hcalls.trans hle) hn hsid
  | converted hcalls hn hread => exact .converted (hcalls.trans hle) hn hread

/-- The scan of `sid_to_string` finds the terminator. -/
theorem sidLength_eq (units : Nat → UInt16) : ∀ n length : Nat,
    sidLength units n length =
      length + (((List.range' length n).map units).takeWhile (· != 0)).length := by
  intro n
  induction n with
  | zero => exact fun length => rfl
  | succ n ih =>
    intro length
    rw [sidLength, List.range'_succ, List.map_cons]
    by_cases hend : units length = 0
    · rw [if_pos hend, List.takeWhile_cons_of_neg (by simp [hend])]
      rfl
    · rw [if_neg hend, List.takeWhile_cons_of_pos (by simp [hend]), ih, List.length_cons]
      omega

/-- The units before the terminator. -/
theorem sidLength_units (units : Nat → UInt16) :
    (List.range (sidLength units sidStringMaxChars 0)).map units =
      ((List.range sidStringMaxChars).map units).takeWhile (· != 0) := by
  have hlength := sidLength_eq units sidStringMaxChars 0
  rw [Nat.zero_add, ← List.range_eq_range'] at hlength
  have hprefix := List.takeWhile_prefix (l := (List.range sidStringMaxChars).map units) (· != 0)
  have hle := hprefix.length_le
  rw [← hlength, List.length_map, List.length_range] at hle
  rw [List.prefix_iff_eq_take.mp hprefix, ← hlength, ← List.map_take, List.take_range,
    Nat.min_eq_left hle]

/-- `sid_to_string` renders what was converted. -/
theorem sidToString_text (sid : Nat) :
    (sidToString sid).Yields fun log r => ∃ text rest,
      log = (.convertSidToStringSid sid, text) :: rest ∧ r = sidText text := by
  unfold sidToString
  refine .ask fun text => ?_
  have hunits := sidLength_units text.units
  have hlength := congrArg List.length hunits
  rw [List.length_map, List.length_range] at hlength
  split
  · next hr =>
    refine .pure ⟨text, [], rfl, ?_⟩
    rw [sidText, Bool.or_assoc, hr, Bool.true_or, if_pos rfl]
  · next hr =>
    refine .ask fun freed => ?_
    split
    · next hbound =>
      refine .pure ⟨text, _, rfl, ?_⟩
      rw [sidText, ← hlength, if_pos]
      rcases hbound with h | h <;> simp [h]
    · next hbound =>
      refine .pure ⟨text, _, rfl, ?_⟩
      rw [not_or] at hbound
      rw [sidText, ← hlength, if_neg, hunits]
      simp only [Bool.not_eq_true] at hr
      simp [hr, hbound.1, hbound.2]

/-- The probe is refused for the error that was read behind it. -/
theorem probeRefused_last (probe : ServerAnswer) :
    (probeRefused probe).Yields fun log refused => refused = true → probe.ok = false ∧
      ∃ last, log = [(.getLastError, last)] ∧ last.error ≠ errorInsufficientBuffer := by
  unfold probeRefused
  split
  · exact .pure (by simp)
  · next hok =>
    refine .ask fun last => .pure fun hlast => ?_
    exact ⟨by simpa using hok, last, rfl, by simpa using hlast⟩

/-- `read_token_information` ends with a read of what it returns, or with why it returns nothing. -/
theorem readTokenInformation_sid (token : UInt64) (cls : TokenClass) :
    (readTokenInformation token cls cls.headerSize).Yields fun log r =>
      (r = none → SidOf token cls log none) ∧
      ∀ buffer : List UInt8, r = some buffer → ∃ before n read,
        log = before ++ [(.getTokenInformation token cls n, read)] ∧ cls.headerSize ≤ n ∧
          read.ok = true ∧ leNat (buffer.take 8) = sidPointer n read := by
  unfold readTokenInformation
  refine .ask fun probe => ?_
  refine .bind (probeRefused_last probe) fun last refused hrefused => ?_
  split
  · next hr =>
    obtain ⟨hprobe, last, rfl, hlast⟩ := hrefused hr
    exact .pure ⟨fun _ => .refused List.infix_rfl hprobe hlast, by simp⟩
  split
  · next hlength =>
    exact .pure ⟨fun _ => .unfit (List.infix_append [] _ _) hlength, by simp⟩
  next hfit =>
  rw [not_or, Nat.not_lt, Nat.not_lt] at hfit
  have hend : ∀ read, [((.getTokenInformation token cls probe.length, read) :
      ServerCall × ServerAnswer)] <:+: (.getTokenInformation token cls 0, probe) ::
        (last ++ [(.getTokenInformation token cls probe.length, read)]) := fun read =>
    (List.suffix_append (_ :: last) _).isInfix
  refine .ask fun read => ?_
  split
  · next hr => exact .pure ⟨fun _ => .unread (hend read) hfit.1 (by simpa using hr), by simp⟩
  · next hr =>
    refine .pure ⟨by simp, fun buffer hbuffer => ?_⟩
    cases hbuffer
    simp only [Bool.or_eq_true, not_or, Bool.not_eq_true, Bool.not_eq_false'] at hr
    exact ⟨(.getTokenInformation token cls 0, probe) :: last, probe.length, read, rfl, hfit.1, hr.1,
      rfl⟩

/-- Reading a SID ends with what its calls tell of it. -/
theorem readTokenSid_sid (token : UInt64) (cls : TokenClass) :
    (readTokenSid token cls).Yields fun log r => SidOf token cls log r := by
  unfold readTokenSid
  refine .bind (readTokenInformation_sid token cls) fun log r hlog => ?_
  cases r with
  | none =>
    refine .pure ?_
    rw [List.append_nil]
    exact hlog.1 rfl
  | some buffer =>
    obtain ⟨before, n, read, rfl, hn, hread, hsid⟩ := hlog.2 buffer rfl
    show Program.Yields _ (if leNat (buffer.take 8) = 0 then _ else _)
    rw [hsid]
    split
    · next hnull =>
      refine .pure (.null ?_ hn hnull)
      rw [List.append_nil]
      exact (List.suffix_append before _).isInfix
    · refine (sidToString_text _).imp fun rest r hrest => ?_
      obtain ⟨text, after, rfl, rfl⟩ := hrest
      refine .converted ?_ hn hread
      rw [List.append_assoc]
      exact ⟨before, after, by simp⟩

theorem readTokenSid_createsNone (token : UInt64) (cls : TokenClass) :
    (readTokenSid token cls).Only ServerCall.createsNone := by
  unfold readTokenSid readTokenInformation
  refine .bind (.ask trivial fun probe => .bind ?_ fun refused => ?_) fun r => ?_
  · unfold probeRefused
    split
    · exact .pure _
    · exact .ask trivial fun _ => .pure _
  · split
    · exact .pure _
    split
    · exact .pure _
    refine .ask trivial fun read => ?_
    split <;> exact .pure _
  · cases r with
    | none => exact .pure _
    | some buffer =>
      show Program.Only _ (if leNat (buffer.take 8) = 0 then _ else _)
      split
      · exact .pure _
      unfold sidToString
      refine .ask trivial fun text => ?_
      split
      · exact .pure _
      refine .ask trivial fun _ => ?_
      split <;> exact .pure _

theorem currentTokenSids_createsNone : currentTokenSids.Only ServerCall.createsNone := by
  unfold currentTokenSids
  refine .ask trivial fun token => ?_
  split
  · exact .pure _
  exact .bind (readTokenSid_createsNone _ _) fun _ => .bind (readTokenSid_createsNone _ _) fun _ =>
    .ask trivial fun _ => .pure _

/-- `current_token_sids` ends with the SIDs that its calls tell of the token it opened. -/
theorem currentTokenSids_sids :
    currentTokenSids.Yields fun log r => ∃ opened, (.openProcessToken, opened) ∈ log ∧
      (r = none → opened.ok = false ∨ SidOf opened.handle .owner log none) ∧
      ∀ owner user, r = some (owner, user) → opened.ok = true ∧
        SidOf opened.handle .owner log (some owner) ∧ SidOf opened.handle .user log user := by
  unfold currentTokenSids
  refine .ask fun opened => ?_
  split
  · next hok =>
    refine .pure ⟨opened, List.mem_singleton_self _, fun _ => .inl (by simpa using hok), by simp⟩
  next hok =>
  refine .bind (readTokenSid_sid opened.handle .owner) fun first owner howner => ?_
  refine .bind (readTokenSid_sid opened.handle .user) fun second user huser => .ask fun closed => ?_
  refine .pure ⟨opened, List.mem_cons_self, ?_⟩
  have howner' : SidOf opened.handle .owner ((.openProcessToken, opened) ::
      (first ++ (second ++ [(.closeToken opened.handle, closed)]))) owner := howner.mono
    ⟨[(.openProcessToken, opened)], second ++ [(.closeToken opened.handle, closed)], by simp⟩
  have huser' : SidOf opened.handle .user ((.openProcessToken, opened) ::
      (first ++ (second ++ [(.closeToken opened.handle, closed)]))) user := huser.mono
    ⟨(.openProcessToken, opened) :: first, [(.closeToken opened.handle, closed)], by simp⟩
  cases owner with
  | none => exact ⟨fun _ => .inr howner', by simp⟩
  | some owner =>
    refine ⟨by simp, fun owner' user' h => ?_⟩
    cases h
    exact ⟨by simpa using hok, howner', huser'⟩

theorem DescriptorBuilt.mono {log log' : List (ServerCall × ServerAnswer)} {descriptor : UInt64}
    (h : DescriptorBuilt log descriptor) (hle : log <:+: log') : DescriptorBuilt log' descriptor := by
  obtain ⟨opened, owner, user, answer, hopen, hok, howner, huser, hcall, hrest⟩ := h
  exact ⟨opened, owner, user, answer, hle.subset hopen, hok, howner.mono hle, huser.mono hle,
    hle.subset hcall, hrest⟩

theorem DescriptorMissing.mono {log log' : List (ServerCall × ServerAnswer)}
    (h : DescriptorMissing log) (hle : log <:+: log') : DescriptorMissing log' := by
  cases h with
  | token hcall hopened => exact .token (hle.subset hcall) hopened
  | owner hcall howner => exact .owner (hle.subset hcall) (howner.mono hle)
  | sddl hcall hanswer => exact .sddl (hle.subset hcall) hanswer

theorem buildControlPipeDescriptor_built :
    buildControlPipeDescriptor.Yields fun log r => CreatesNone log ∧
      (r = none → DescriptorMissing log) ∧
      ∀ descriptor, r = some descriptor → DescriptorBuilt log descriptor := by
  unfold buildControlPipeDescriptor
  refine .bind (currentTokenSids_createsNone.and currentTokenSids_sids) fun log r hlog => ?_
  obtain ⟨hlog, opened, hopen, hnone, hsome⟩ := hlog
  rcases r with _ | ⟨owner, user⟩
  · refine .pure ⟨?_, fun _ => ?_, by simp⟩
    · rwa [List.append_nil]
    · rw [List.append_nil]
      rcases hnone rfl with hok | howner
      · exact .token hopen hok
      · exact .owner hopen howner
  obtain ⟨hok, howner, huser⟩ := hsome owner user rfl
  refine .ask fun converted => ?_
  have hlast : ((.convertStringSecurityDescriptor (controlPipeSddl owner user), converted) :
      ServerCall × ServerAnswer) ∈ log ++
        [(.convertStringSecurityDescriptor (controlPipeSddl owner user), converted)] :=
    List.mem_append_right _ (List.mem_singleton_self _)
  have hcreates : CreatesNone
      (log ++ [(.convertStringSecurityDescriptor (controlPipeSddl owner user), converted)]) := by
    intro e he
    rcases List.mem_append.mp he with he | he
    · exact hlog e he
    · rw [List.mem_singleton.mp he]
      trivial
  have hwithin := (List.prefix_append log
    [(.convertStringSecurityDescriptor (controlPipeSddl owner user), converted)]).isInfix
  split
  · next hr =>
    refine .pure ⟨hcreates, fun _ => .sddl hlast ?_, by simp⟩
    simpa using hr
  · next hr =>
    refine .pure ⟨hcreates, by simp, fun descriptor hd => ?_⟩
    cases hd
    simp only [Bool.or_eq_true, Bool.not_eq_true', beq_iff_eq, not_or, Bool.not_eq_false] at hr
    exact ⟨opened, owner, user, converted, hwithin.subset hopen, hok, howner.mono hwithin,
      huser.mono hwithin, hlast, hr.1, rfl, hr.2⟩

/-- However Windows answers: every instance of the pipe is created with the same descriptor, the one
    built for the SIDs of the process's token, or the default where none could be built; the server
    returns, with code 2, just when the thirtieth attempt in a row to create an instance fails, and
    listens as long as none does. -/
theorem server_stops (rounds : Nat) (answers : Nat → ServerAnswer) :
    ∃ descriptor,
      (descriptor = none → DescriptorMissing ((serverThread rounds).run answers).1) ∧
      (∀ d, descriptor = some d → DescriptorBuilt ((serverThread rounds).run answers).1 d) ∧
      LoopEnd descriptor rounds 0 ((serverThread rounds).run answers).1
        ((serverThread rounds).run answers).2 := by
  refine Program.Yields.run (P := fun log r => ∃ descriptor : Option UInt64,
    (descriptor = none → DescriptorMissing log) ∧
    (∀ d, descriptor = some d → DescriptorBuilt log d) ∧ LoopEnd descriptor rounds 0 log r)
    ?_ answers
  unfold serverThread
  refine .bind buildControlPipeDescriptor_built fun built r hbuilt => ?_
  refine .bind (acceptLoop_ends r rounds 0 (by decide)) fun log code hend => ?_
  have hwithin : ∀ after : List (ServerCall × ServerAnswer), built <:+: built ++ (log ++ after) :=
    fun after => (List.prefix_append _ _).isInfix
  have hmissing : ∀ after, r = none → DescriptorMissing (built ++ (log ++ after)) :=
    fun after hr => (hbuilt.2.1 hr).mono (hwithin after)
  have hdescriptor : ∀ after d, r = some d → DescriptorBuilt (built ++ (log ++ after)) d :=
    fun after d hd => (hbuilt.2.2 d hd).mono (hwithin after)
  have hnothing : CreatesNone [] := fun e he => absurd he List.not_mem_nil
  cases code with
  | none => exact .pure ⟨r, hmissing [], hdescriptor [], hend.around hbuilt.1 hnothing⟩
  | some code =>
    cases r with
    | none => exact .pure ⟨none, hmissing [], hdescriptor [], hend.around hbuilt.1 hnothing⟩
    | some d =>
      refine .ask fun answer =>
        .pure ⟨some d, hmissing _, hdescriptor _, hend.around hbuilt.1 ?_⟩
      intro e he
      rw [List.mem_singleton.mp he]
      trivial

/-! ## Whom the descriptor admits -/

/-- The text between the heads of the source's format string, spelled out. -/
theorem sddl_head : "D:(A;;FA;;;SY)(A;;FA;;;BA)(A;;FA;;;".toList =
    daclHead ++ (aceHead ++ "SY".toList ++ [')'] ++ (aceHead ++ "BA".toList ++ [')'] ++ aceHead)) := by
  decide +kernel

theorem controlPipeSddl_eq (owner : List Char) (user : Option (List Char)) :
    controlPipeSddl owner user =
      daclHead ++ ((controlPipeTrustees owner user).map (aceHead ++ ·)).flatMap (· ++ [')']) := by
  have hclose : ")".toList = [')'] := by decide +kernel
  unfold controlPipeSddl controlPipeTrustees
  rw [sddl_head, hclose]
  cases user.filter (!Launch.eqIgnoreAsciiCase · owner) with
  | none =>
    simp only [Option.toList_none, List.append_nil, List.map_cons, List.map_nil,
      List.flatMap_cons, List.flatMap_nil, List.append_assoc]
  | some user =>
    simp only [Option.toList_some, List.map_cons, List.map_nil, List.map_append,
      List.flatMap_cons, List.flatMap_nil, List.flatMap_append, List.append_assoc, List.append_nil]
    rfl

theorem splitOn_entries {entries : List (List Char)} (h : ∀ e ∈ entries, ')' ∉ e) :
    (entries.flatMap (· ++ [')'])).splitOn ')' = entries ++ [[]] := by
  induction entries with
  | nil => rfl
  | cons e rest ih =>
    rw [List.flatMap_cons, List.append_assoc, List.singleton_append,
      List.splitOn_append_cons_self_of_not_mem (h e List.mem_cons_self),
      ih fun e he => h e (List.mem_cons_of_mem _ he)]
    rfl

theorem aceTrustee_head (trustee : List Char) : aceTrustee (aceHead ++ trustee) = some trustee := by
  rw [aceTrustee, if_pos (List.isPrefixOf_iff_prefix.mpr (List.prefix_append _ _)), List.drop_left]

theorem mapM_aceTrustee (trustees : List (List Char)) :
    (trustees.map (aceHead ++ ·)).mapM aceTrustee = some trustees := by
  induction trustees with
  | nil => rfl
  | cons t rest ih =>
    rw [List.map_cons, List.mapM_cons, ih, aceTrustee_head]
    rfl

theorem controlPipeTrustees_cases {owner t : List Char} {user : Option (List Char)}
    (h : t ∈ controlPipeTrustees owner user) :
    t = "SY".toList ∨ t = "BA".toList ∨ t = owner ∨ user = some t := by
  simp only [controlPipeTrustees, List.mem_append, List.mem_cons, Option.mem_toList,
    List.not_mem_nil, or_false] at h
  rcases h with (h | h | h) | h
  · exact .inl h
  · exact .inr (.inl h)
  · exact .inr (.inr (.inl h))
  · exact .inr (.inr (.inr (Option.filter_eq_some_iff.mp h).1))

/-- The DACL of the control pipe grants full access to System, the administrators, the token's owner
    and, where it is another account, its user, and to nobody else. -/
theorem control_pipe_grants {owner : List Char} {user : Option (List Char)} (howner : ')' ∉ owner)
    (huser : ∀ u, user = some u → ')' ∉ u) :
    daclGrants (controlPipeSddl owner user) = some (controlPipeTrustees owner user) := by
  have hfree : ∀ e ∈ (controlPipeTrustees owner user).map (aceHead ++ ·), ')' ∉ e := by
    intro e he
    obtain ⟨t, ht, rfl⟩ := List.mem_map.mp he
    have ht' : ')' ∉ t := by
      rcases controlPipeTrustees_cases ht with rfl | rfl | rfl | h
      · decide +kernel
      · decide +kernel
      · exact howner
      · exact huser t h
    have hhead : ')' ∉ aceHead := by decide +kernel
    exact fun hm => (List.mem_append.mp hm).elim hhead ht'
  have hentries : ((controlPipeSddl owner user).drop daclHead.length).splitOn ')' =
      (controlPipeTrustees owner user).map (aceHead ++ ·) ++ [[]] := by
    rw [controlPipeSddl_eq, List.drop_left, splitOn_entries hfree]
  have hhead : daclHead.isPrefixOf (controlPipeSddl owner user) = true := by
    rw [controlPipeSddl_eq]
    exact List.isPrefixOf_iff_prefix.mpr (List.prefix_append _ _)
  simp only [daclGrants, hentries]
  rw [if_pos ⟨hhead, List.getLast?_concat⟩, List.dropLast_concat, mapM_aceTrustee]

theorem control_pipe_grants_elevated :
    daclGrants (controlPipeSddl "S-1-5-32-544".toList (some "S-1-5-21-7-1001".toList)) =
      some (controlPipeTrustees "S-1-5-32-544".toList (some "S-1-5-21-7-1001".toList)) :=
  control_pipe_grants (by decide +kernel) (by rintro _ ⟨⟩; decide +kernel)

end Gate
end SteamInputLease
