import Relex.Proofs.MaximalRuns

/-! # Empty tokens between runs

A list of tokens may hold empty ones. All tokens that begin at one offset are then empty but the last,
and a group that begins there takes them in and follows that last one. A group that is already on its
way asks for kinds only, so an empty token of another kind ends it, and the group behind takes that
token in and may go on with the kind of the one before. Two such groups join when they are grouped
again. `Unbroken` says that nothing of this sort happens, and grouping once more changes the tokens
exactly when it does (`Group.settled_iff_unbroken`). A third time never changes them.
-/

namespace Relex

open Text

namespace Group

variable {π ι : Type} {grouping : Grouping} {r : Reading π ι} {rs : List (Reading π ι)}

/-- No token begins in front of the beginning of the one before it. -/
def Ordered (rs : List (Reading π ι)) : Prop :=
  (rs.map (·.place.offset)).Pairwise (· ≤ ·)

theorem Ordered.drop (h : Ordered rs) (n : Nat) : Ordered (rs.drop n) := by
  rw [Ordered, List.map_drop]
  exact h.sublist (List.drop_sublist n _)

theorem Apart.ordered (h : Apart rs) : Ordered rs :=
  h.imp Nat.le_of_lt

/-! ## The first group, and what is behind it -/

/-- A list of tokens, cut at the leader of its first group and behind that group. -/
structure Led (grouping : Grouping) (rs init : List (Reading π ι)) (leader : Reading π ι)
    (run rest : List (Reading π ι)) : Prop where
  split : rs = init ++ leader :: (run ++ rest)
  beside : ∀ s ∈ init, s.place.offset = leader.place.offset
  joined : ∀ s ∈ run, grouping.joins leader.kind s.kind = true
  later : ∀ s ∈ run ++ rest, leader.place.offset < s.place.offset
  behind : ∀ s ∈ rest.head?, grouping.joins leader.kind s.kind = false

theorem lt_of_mem_behind_atStart (h : Ordered (r :: rs)) :
    ∀ s ∈ rs.drop (atStart r rs).length, r.place.offset < s.place.offset := by
  rw [Ordered, List.map_cons, List.pairwise_cons] at h
  have hrest := Ordered.drop h.2 (atStart r rs).length
  have hhead := head_drop_takeWhile (fun s : Reading π ι => s.place.offset == r.place.offset) rs
  intro s hs
  cases hdrop : rs.drop (atStart r rs).length with
  | nil =>
      rw [hdrop] at hs
      cases hs
  | cons t ts =>
      have ht : t ∈ rs := by
        apply List.mem_of_mem_drop (i := (atStart r rs).length)
        rw [hdrop]
        exact List.mem_cons_self
      have hle : r.place.offset ≤ t.place.offset := h.1 _ (List.mem_map_of_mem ht)
      have hne : t.place.offset ≠ r.place.offset := by
        rw [atStart] at hdrop
        exact ne_of_beq_false (hhead t (by rw [hdrop]; rfl))
      rw [hdrop] at hs
      rw [hdrop, Ordered, List.map_cons, List.pairwise_cons] at hrest
      rcases List.mem_cons.mp hs with rfl | hs
      · omega
      · have := hrest.1 _ (List.mem_map_of_mem hs)
        omega

theorem exists_led (grouping : Grouping) (h : Ordered (r :: rs)) :
    ∃ init, Led grouping (r :: rs) init (leader r rs) (run grouping r rs)
      (rs.drop (front grouping r rs).more.length) := by
  obtain ⟨init, hinit⟩ : ∃ init, r :: atStart r rs = init ++ [leader r rs] :=
    List.getLast?_eq_some_iff.mp (List.getLast?_cons)
  let behind := rs.drop (atStart r rs).length
  have hmore : (front grouping r rs).more = atStart r rs ++ run grouping r rs := by rw [front_eq]
  have hrest : rs.drop (front grouping r rs).more.length =
      behind.drop (run grouping r rs).length := by
    rw [hmore, List.length_append, ← List.drop_drop]
  have hbehind : run grouping r rs ++ behind.drop (run grouping r rs).length = behind :=
    List.prefix_iff_eq_append.mp (List.takeWhile_prefix _)
  have hstart : ∀ s ∈ r :: atStart r rs, s.place.offset = r.place.offset := by
    intro s hs
    rcases List.mem_cons.mp hs with rfl | hs
    · rfl
    · exact beq_iff_eq.mp
        (List.mem_takeWhile_imp (p := fun s : Reading π ι => s.place.offset == r.place.offset) hs)
  rw [hinit] at hstart
  have hleader : (leader r rs).place.offset = r.place.offset :=
    hstart _ (List.mem_append_right _ List.mem_cons_self)
  refine ⟨init, ?_, ?_, fun s => joins_of_mem_run, ?_, ?_⟩
  · rw [hrest, hbehind, List.append_cons, ← hinit, List.cons_append]
    exact congrArg (r :: ·) (List.prefix_iff_eq_append.mp (List.takeWhile_prefix _)).symm
  · intro s hs
    rw [hleader]
    exact hstart s (List.mem_append_left _ hs)
  · rw [hrest, hbehind, hleader]
    exact lt_of_mem_behind_atStart h
  · rw [hrest]
    exact head_drop_takeWhile (fun s : Reading π ι => grouping.joins (leader r rs).kind s.kind) behind

/-- The leader is the last token that begins where the first one begins. -/
theorem leader_eq {s t : Reading π ι} {ss init after : List (Reading π ι)}
    (hsplit : s :: ss = init ++ t :: after)
    (hinit : ∀ e ∈ init, e.place.offset = t.place.offset)
    (hafter : ∀ e ∈ after.head?, e.place.offset ≠ t.place.offset) : leader s ss = t := by
  have hstop : ∀ start, start = t.place.offset →
      after.takeWhile (fun e => e.place.offset == start) = [] := by
    rintro _ rfl
    cases after with
    | nil => rfl
    | cons e es => exact List.takeWhile_cons_of_neg (fun heq => hafter e rfl (beq_iff_eq.mp heq))
  cases init with
  | nil =>
      cases hsplit
      simp only [leader, atStart, hstop _ rfl, List.getLast?_nil, Option.getD_none]
  | cons e init =>
      obtain ⟨rfl, htail⟩ := List.cons.inj hsplit
      rw [htail]
      obtain ⟨hs, hinit⟩ := List.forall_mem_cons.mp hinit
      have hstart : atStart s (init ++ t :: after) = init ++ [t] := by
        rw [atStart, List.append_cons, List.takeWhile_append_of_pos, hstop _ hs, List.append_nil]
        intro e he
        rw [hs, beq_iff_eq]
        rcases List.mem_append.mp he with he | he
        · exact hinit e he
        · rw [List.mem_singleton.mp he]
      simp only [leader, List.append_eq, hstart, List.getLast?_concat, Option.getD_some]


/-! ## When two groups join -/

/-- No empty token interrupts a run. If a token joins the last token at the next offset, it joins all
    tokens there. -/
def Unbroken (grouping : Grouping) (tokens : List Token) : Prop :=
  ∀ (before : List Token) (a : Token) (empties : List Token) (b : Token) (after : List Token),
    tokens = before ++ a :: (empties ++ b :: after) → a.start ≠ b.start →
    (∀ e ∈ empties, e.start = b.start) → (∀ t ∈ after.head?, t.start ≠ b.start) →
    grouping.joins a.kind b.kind = true → ∀ e ∈ empties, grouping.joins a.kind e.kind = true

/-- The tokens `empties` begin at one offset with `b` behind them and end the run that `a` is in, but
    `b` would go on with it. -/
structure Gap (grouping : Grouping) (rs before : List (Reading π ι)) (a : Reading π ι)
    (empties : List (Reading π ι)) (b : Reading π ι) (after : List (Reading π ι)) : Prop where
  split : rs = before ++ a :: (empties ++ b :: after)
  apart : a.place.offset ≠ b.place.offset
  beside : ∀ e ∈ empties, e.place.offset = b.place.offset
  later : ∀ t ∈ after.head?, t.place.offset ≠ b.place.offset
  joined : grouping.joins a.kind b.kind = true
  broken : ∃ e ∈ empties, grouping.joins a.kind e.kind = false

theorem unbroken_iff : Unbroken grouping (rs.map Reading.token) ↔
    ∀ before a empties b after, ¬ Gap grouping rs before a empties b after := by
  constructor
  · intro h before a empties b after gap
    obtain ⟨e, he, hbroken⟩ := gap.broken
    have hjoins := h (before.map Reading.token) a.token (empties.map Reading.token) b.token
      (after.map Reading.token) (by simp [gap.split]) gap.apart
      (by simpa [Reading.token] using gap.beside)
      (by simpa [Reading.token] using gap.later) gap.joined e.token (List.mem_map_of_mem he)
    exact Bool.eq_false_iff.mp hbroken hjoins
  · intro h before a empties b after hsplit hapart hbeside hlater hjoined e he
    by_contra hbroken
    obtain ⟨before, behind, rfl, rfl, hbehind⟩ := List.map_eq_append_iff.mp hsplit
    obtain ⟨a, window, rfl, rfl, hwindow⟩ := List.map_eq_cons_iff.mp hbehind
    obtain ⟨empties, last, rfl, rfl, hlast⟩ := List.map_eq_append_iff.mp hwindow
    obtain ⟨b, after, rfl, rfl, rfl⟩ := List.map_eq_cons_iff.mp hlast
    obtain ⟨r, hr, rfl⟩ := List.mem_map.mp he
    exact h before a empties b after ⟨rfl, hapart, by simpa [Reading.token] using hbeside,
      by simpa [Reading.token] using hlater, hjoined, r, hr, Bool.eq_false_iff.mpr hbroken⟩

variable {init run rest before empties after : List (Reading π ι)} {leading a b : Reading π ι}

/-- The gaps of a stream are among those of a longer one. -/
theorem Gap.prepend (gap : Gap grouping rest before a empties b after) (ahead : List (Reading π ι)) :
    Gap grouping (ahead ++ rest) (ahead ++ before) a empties b after :=
  { gap with split := by rw [gap.split, List.append_assoc] }

theorem Led.offset_head (led : Led grouping (r :: rs) init leading run rest) :
    r.place.offset = leading.place.offset := by
  have hsplit := led.split
  cases init with
  | nil => rw [(List.cons.inj hsplit).1]
  | cons s init =>
      rw [(List.cons.inj hsplit).1]
      exact led.beside s List.mem_cons_self

theorem Led.joins {s t : Reading π ι} (led : Led grouping rs init leading run rest)
    (hs : s ∈ leading :: run) (ht : grouping.joins leading.kind t.kind = true) :
    grouping.joins s.kind t.kind = true := by
  rcases List.mem_cons.mp hs with rfl | hs
  · exact ht
  · exact Grouping.joins_trans (Grouping.joins_symm (led.joined s hs)) ht

theorem Led.joins_leader {s t : Reading π ι} (led : Led grouping rs init leading run rest)
    (hs : s ∈ leading :: run) (ht : grouping.joins s.kind t.kind = true) :
    grouping.joins leading.kind t.kind = true := by
  rcases List.mem_cons.mp hs with rfl | hs
  · exact ht
  · exact Grouping.joins_trans (led.joined s hs) ht

theorem exists_last {α : Type} {p : α → Prop} {as : List α} (h : ∃ a ∈ as, p a) :
    ∃ before a after, as = before ++ a :: after ∧ p a ∧ ∀ b ∈ after, ¬ p b := by
  induction as with
  | nil => simp at h
  | cons c as ih =>
      by_cases hlater : ∃ a ∈ as, p a
      · obtain ⟨before, a, after, rfl, ha⟩ := ih hlater
        exact ⟨c :: before, a, after, rfl, ha⟩
      · have hc : p c := by
          obtain ⟨a, ha, hp⟩ := h
          rcases List.mem_cons.mp ha with rfl | ha
          · exact hp
          · exact absurd ⟨a, ha, hp⟩ hlater
        exact ⟨[], c, as, rfl, hc, fun b hb hp => hlater ⟨b, hb, hp⟩⟩

/-- Where the first two groups join, the tokens in front of the second leader are a gap. -/
theorem Led.exists_gap {next : Reading π ι} {between run' rest' : List (Reading π ι)}
    (led : Led grouping rs init leading run rest)
    (led' : Led grouping rest between next run' rest')
    (hjoins : grouping.joins leading.kind next.kind = true) :
    ∃ before a empties b after, Gap grouping rs before a empties b after := by
  have hnext : next ∈ run ++ rest := by
    rw [led'.split]
    simp
  obtain ⟨before, a, beside, hlast, hapart, hbeside⟩ :
      ∃ before a beside, leading :: run = before ++ a :: beside ∧
        a.place.offset ≠ next.place.offset ∧
        ∀ e ∈ beside, ¬ e.place.offset ≠ next.place.offset := by
    apply exists_last
    exact ⟨leading, List.mem_cons_self, Nat.ne_of_lt (led.later next hnext)⟩
  have ha : a ∈ leading :: run := by
    rw [hlast]
    simp
  refine ⟨init ++ before, a, beside ++ between, next, run' ++ rest', ?_, hapart, ?_, ?_,
    led.joins ha hjoins, ?_⟩
  · calc rs = init ++ ((leading :: run) ++ rest) := led.split
      _ = _ := by
        rw [hlast, led'.split]
        simp only [List.append_assoc, List.cons_append]
  · intro e he
    rcases List.mem_append.mp he with he | he
    · exact not_not.mp (hbeside e he)
    · exact led'.beside e he
  · intro t ht
    exact Nat.ne_of_gt (led'.later t (List.mem_of_mem_head? ht))
  · -- The first token behind the group does not join it, so it is not the leader that does.
    cases between with
    | nil =>
        have hbehind := led.behind next (by rw [led'.split]; rfl)
        rw [hjoins] at hbehind
        cases hbehind
    | cons t between =>
        refine ⟨t, by simp, Bool.eq_false_iff.mpr fun hjoined => ?_⟩
        have hbehind := led.behind t (by rw [led'.split]; rfl)
        rw [led.joins_leader ha hjoined] at hbehind
        cases hbehind

/-- A gap does not begin in front of the leader, whose offset is that of all tokens there. -/
theorem Led.mem_of_gap {window : List (Reading π ι)} (led : Led grouping rs init leading run rest)
    (hordered : Ordered rs) (gap : Gap grouping rs before a empties b after)
    (hwindow : init ++ leading :: run = before ++ a :: window) :
    a ∈ leading :: run ∧ ∀ e ∈ window, e ∈ run := by
  rcases List.append_eq_append_iff.mp hwindow with ⟨ahead, rfl, hrun⟩ | ⟨ahead, hinit, hrun⟩
  · cases ahead with
    | nil =>
        obtain ⟨rfl, rfl⟩ := List.cons.inj hrun
        exact ⟨List.mem_cons_self, fun _ => id⟩
    | cons s ahead =>
        obtain ⟨rfl, rfl⟩ := List.cons.inj hrun
        exact ⟨by simp, fun e he => by simp [he]⟩
  · cases ahead with
    | nil =>
        obtain ⟨rfl, rfl⟩ := List.cons.inj hrun
        exact ⟨List.mem_cons_self, fun _ => id⟩
    | cons s ahead =>
        obtain ⟨rfl, rfl⟩ := List.cons.inj hrun
        exfalso
        have ha : a.place.offset = leading.place.offset := led.beside a (by simp [hinit])
        have hleading : leading ∈ empties ++ b :: after := by
          have hsplit : before ++ a :: (empties ++ b :: after) =
              before ++ a :: (ahead ++ leading :: (run ++ rest)) := by
            rw [← gap.split, led.split, hinit]
            simp only [List.append_assoc, List.cons_append]
          rw [(List.cons.inj (List.append_cancel_left hsplit)).2]
          simp
        rw [gap.split, Ordered] at hordered
        simp only [List.map_append, List.map_cons, List.pairwise_append, List.pairwise_cons]
          at hordered
        obtain ⟨-, ⟨hfirst, -, ⟨hbehind, -⟩, -⟩, -⟩ := hordered
        have hapart := gap.apart
        rcases List.mem_append.mp hleading with he | he
        · have := gap.beside leading he
          omega
        · rcases List.mem_cons.mp he with rfl | he
          · exact hapart ha
          · have hb := hfirst b.place.offset (by simp)
            have hlead := hbehind leading.place.offset (List.mem_map_of_mem he)
            omega

theorem Led.unbroken_iff (led : Led grouping rs init leading run rest) (hordered : Ordered rs) :
    Unbroken grouping (rs.map Reading.token) ↔
      (∀ t ts, rest = t :: ts → grouping.joins leading.kind (leader t ts).kind = false) ∧
        Unbroken grouping (rest.map Reading.token) := by
  have hsplit : rs = (init ++ leading :: run) ++ rest := by
    rw [led.split, List.append_assoc, List.cons_append]
  rw [Group.unbroken_iff, Group.unbroken_iff]
  constructor
  · intro hnone
    refine ⟨?_, ?_⟩
    · intro t ts hrest
      have hordered' : Ordered (t :: ts) := by
        have hdrop : rs.drop (init ++ leading :: run).length = rest := by
          rw [hsplit, List.drop_left]
        rw [← hrest, ← hdrop]
        exact hordered.drop _
      obtain ⟨between, led'⟩ := exists_led grouping hordered'
      rw [Bool.eq_false_iff]
      intro hjoins
      rw [← hrest] at led'
      obtain ⟨before, a, empties, b, after, gap⟩ := led.exists_gap led' hjoins
      exact hnone _ _ _ _ _ gap
    · intro before a empties b after gap
      refine hnone ((init ++ leading :: run) ++ before) a empties b after ?_
      rw [hsplit]
      exact gap.prepend (init ++ leading :: run)
  · rintro ⟨hnext, hnone⟩ before a empties b after gap
    have hcut : (init ++ leading :: run) ++ rest = before ++ (a :: (empties ++ b :: after)) := by
      rw [← hsplit, gap.split]
    -- Where the second group is led by the end of the gap, the two groups join.
    have hled {window ahead : List (Reading π ι)} (hrest : rest = ahead ++ b :: after)
        (hahead : ∀ e ∈ ahead, e ∈ empties)
        (hwindow : init ++ leading :: run = before ++ a :: window) : False := by
      have ha := (led.mem_of_gap hordered gap hwindow).1
      cases hts : rest with
      | nil => simp [hts] at hrest
      | cons t ts =>
          rw [hts] at hrest
          have hleader := leader_eq hrest (fun e he => gap.beside e (hahead e he)) gap.later
          have hbehind := hnext t ts hts
          rw [hleader, led.joins_leader ha gap.joined] at hbehind
          cases hbehind
    rcases List.append_eq_append_iff.mp hcut with ⟨ahead, rfl, hrest⟩ | ⟨window, hwindow, hrest⟩
    · exact hnone ahead a empties b after { gap with split := hrest }
    · cases window with
      | nil => exact hnone [] a empties b after { gap with split := hrest.symm }
      | cons s window =>
          obtain ⟨rfl, hbehind⟩ := List.cons.inj hrest
          rcases List.append_eq_append_iff.mp hbehind with
            ⟨inside, rfl, hlast⟩ | ⟨ahead, hahead, hlast⟩
          · cases inside with
            | nil =>
                have hrest : rest = [] ++ b :: after := hlast.symm
                exact hled hrest (List.forall_mem_nil _) hwindow
            | cons t inside =>
                obtain ⟨ha, hrun⟩ := led.mem_of_gap hordered gap hwindow
                obtain ⟨e, he, hbroken⟩ := gap.broken
                rw [led.joins ha (led.joined e (hrun e (by simp [he])))] at hbroken
                cases hbroken
          · exact hled hlast (fun e he => by simp [hahead, he]) hwindow

/-- Grouping once more leaves the groups alone exactly where no empty token interrupts a run. -/
theorem settled_iff_unbroken (grouping : Grouping) (final : Place π ι) (h : Ordered rs) :
    Settled grouping (readings final (ofReadings grouping rs)) ↔
      Unbroken grouping (rs.map Reading.token) := by
  fun_induction ofReadings grouping rs with
  | case1 =>
      refine iff_of_true List.isChain_nil ?_
      intro before a empties b after hsplit
      simp at hsplit
  | case2 r rs group ih =>
      obtain ⟨init, led⟩ := exists_led grouping h
      have hrest : Ordered (rs.drop group.more.length) := Ordered.drop h (group.more.length + 1)
      rw [led.unbroken_iff h, ← ih hrest]
      cases hdrop : rs.drop group.more.length with
      | nil =>
          rw [ofReadings]
          simp [readings, Settled]
      | cons s ss =>
          rw [ofReadings]
          have hjoins : grouping.joins group.kind (front grouping s ss).kind =
              grouping.joins (leader r rs).kind (leader s ss).kind := joins_front grouping r s rs ss
          have hnext : (∀ t ts, s :: ss = t :: ts →
              grouping.joins (leader r rs).kind (leader t ts).kind = false) ↔
              grouping.joins group.kind (front grouping s ss).kind = false := by
            rw [hjoins]
            refine ⟨fun h => h s ss rfl, ?_⟩
            rintro h t ts ⟨⟩
            exact h
          rw [hnext]
          exact List.isChain_cons_cons

/-! ## Grouping once more -/

theorem Ordered.apart_readings (grouping : Grouping) (final : Place π ι) (h : Ordered rs) :
    Apart (readings final (ofReadings grouping rs)) := by
  fun_induction ofReadings grouping rs with
  | case1 => exact List.Pairwise.nil
  | case2 r rs group ih =>
      obtain ⟨init, led⟩ := exists_led grouping h
      have hrest : Ordered (rs.drop group.more.length) := Ordered.drop h (group.more.length + 1)
      refine List.pairwise_cons.mpr ⟨?_, ih hrest⟩
      intro offset hoffset
      obtain ⟨s, hs, rfl⟩ := List.mem_map.mp hoffset
      let rest : Tape π ι := ⟨rs.drop group.more.length, final⟩
      have hmem : s ∈ (rest.group grouping).readings := hs
      obtain ⟨n, t, ts, hdrop, rfl⟩ := Tape.mem_readings_group hmem
      have ht : t ∈ rest.readings := by
        apply List.mem_of_mem_drop (i := n)
        rw [← Tape.readings_drop, hdrop]
        exact List.mem_cons_self
      calc r.place.offset = (leader r rs).place.offset := led.offset_head
        _ < t.place.offset := led.later t (List.mem_append_right _ ht)

theorem length_ofReadings_le (grouping : Grouping) (rs : List (Reading π ι)) :
    (ofReadings grouping rs).length ≤ rs.length := by
  fun_induction ofReadings grouping rs with
  | case1 => exact Nat.le_refl _
  | case2 r rs group ih =>
      rw [List.length_drop] at ih
      simp only [List.length_cons]
      omega

theorem length_readings (final : Place π ι) (groups : List (Group π ι)) :
    (readings final groups).length = groups.length := by
  induction groups with
  | nil => rfl
  | cons group groups ih => rw [readings, List.length_cons, List.length_cons, ih]

/-- Where there are as many groups as tokens, no two neighbours join. -/
theorem settled_of_length (h : Apart rs) (hlength : rs.length ≤ (ofReadings grouping rs).length) :
    Settled grouping rs := by
  induction rs with
  | nil => exact List.isChain_nil
  | cons r rs ih =>
      rw [ofReadings] at hlength
      simp only [front_of_apart grouping h, List.length_cons] at hlength
      have hle := length_ofReadings_le grouping
        (rs.drop (rs.takeWhile fun s => grouping.joins r.kind s.kind).length)
      rw [List.length_drop] at hle
      cases rs with
      | nil => exact List.isChain_singleton _
      | cons s ss =>
          have hs : grouping.joins r.kind s.kind = false := by
            rw [Bool.eq_false_iff]
            intro hjoins
            simp only [List.takeWhile_cons, hjoins, if_true, List.length_cons] at hle hlength
            omega
          simp only [List.takeWhile_cons, hs, Bool.false_eq_true, if_false, List.length_nil,
            List.drop_zero] at hlength
          exact List.isChain_cons_cons.mpr ⟨hs, ih (Apart.drop (n := 1) h) (Nat.le_of_succ_le_succ hlength)⟩

theorem map_token_eq_of_shown {rs ss : List (Reading π ι)} (h : shown rs = shown ss) :
    rs.map Reading.token = ss.map Reading.token := by
  have hfst := congrArg (List.map Prod.fst) h
  rw [shown, shown, List.map_map, List.map_map] at hfst
  exact hfst

end Group

namespace Tape

variable {π ι : Type} {tape : Tape π ι} (grouping : Grouping)

/-- Grouping once more changes the tokens exactly where an empty token interrupts a run. -/
theorem tokens_group_group_iff (h : Group.Ordered tape.readings) :
    ((tape.group grouping).group grouping).tokens = (tape.group grouping).tokens ↔
      Group.Unbroken grouping tape.tokens := by
  have hapart := h.apart_readings grouping tape.final
  refine Iff.trans ?_ (Group.settled_iff_unbroken grouping tape.final h)
  constructor
  · intro hsame
    apply Group.settled_of_length hapart
    have hlength := congrArg List.length hsame
    simp only [tokens, List.length_map, group, Group.length_readings] at hlength ⊢
    exact hlength.ge
  · exact fun hsettled => Group.map_token_eq_of_shown (Group.shown_of_settled hapart hsettled)

/-- Grouping a third time changes nothing. -/
theorem tokens_group_group_group (h : Group.Ordered tape.readings) :
    (((tape.group grouping).group grouping).group grouping).tokens =
      ((tape.group grouping).group grouping).tokens := by
  have hapart := h.apart_readings grouping tape.final
  exact Group.map_token_eq_of_shown (Group.shown_of_settled
    (hapart.ordered.apart_readings grouping tape.final)
    (Group.settled_of_apart grouping tape.final hapart))

end Tape

namespace Replay

/-- The tokens cover a text of some size, one behind the other. Some of them may be empty. -/
structure Contiguous (tokens : List Token) (size : Nat) : Prop where
  forward : ∀ t ∈ tokens, t.start ≤ t.stop
  first : ∀ t ∈ tokens.head?, t.start = 0
  adjacent : tokens.IsChain fun s t => s.stop = t.start
  last : ∀ t ∈ tokens.getLast?, t.stop = size

theorem Contiguous.pairwise_start {tokens : List Token} {size : Nat} (h : Contiguous tokens size) :
    (tokens.map Token.start).Pairwise (· ≤ ·) := by
  have hchain : tokens.IsChain fun s t => s.start ≤ t.start := by
    refine h.adjacent.imp_of_mem_imp ?_
    intro s t hs _ hadjacent
    rw [← hadjacent]
    exact h.forward s hs
  rw [List.pairwise_map]
  exact hchain.pairwise

theorem Contiguous.ordered {tokens : List Token} {size : Nat} (h : Contiguous tokens size)
    (source : String) : Group.Ordered ((Replay.mk tokens).tape source 0).readings := by
  have htokens : ((Replay.mk tokens).tape source 0).tokens = tokens := tokens_tape ⟨tokens⟩ source
  have hpairwise := h.pairwise_start
  rw [← htokens, Tape.tokens, List.map_map] at hpairwise
  exact hpairwise

/-- Replayed tokens that cover the source are grouped once and for all exactly where no empty token
    interrupts a run. Otherwise grouping them twice shows other tokens, and grouping them three times
    shows these again. -/
theorem regrouped_iff_unbroken (grouping : Grouping) (tokens : List Token) (source : String)
    (start stop : Nat) (state : UInt32) (h : Contiguous tokens source.utf8ByteSize) :
    let below : Grouped Replay := ⟨grouping, ⟨tokens⟩⟩
    let twice : Grouped (Grouped Replay) := ⟨grouping, below⟩
    let thrice : Grouped (Grouped (Grouped Replay)) := ⟨grouping, twice⟩
    ∃ first second third, (Lexer.idle below).start source start stop state = .ok first ∧
      (Lexer.idle twice).start source start stop state = .ok second ∧
      (Lexer.idle thrice).start source start stop state = .ok third ∧
      (second.tape.tokens = first.tape.tokens ↔ Group.Unbroken grouping tokens) ∧
      third.tape.tokens = second.tape.tokens := by
  intro below twice thrice
  have hordered := h.ordered source
  refine ⟨_, _, _, rfl, rfl, rfl, ?_, ?_⟩
  · have hiff := Tape.tokens_group_group_iff grouping hordered
    rw [tokens_tape] at hiff
    exact hiff
  · exact Tape.tokens_group_group_group grouping hordered

/-- Empty white space in front of text, and an empty piece inside of the text. -/
theorem regrouped_of_empty_ends :
    let tokens : List Token :=
      [⟨.whiteSpace, 0, 0⟩, ⟨.dataCharacters, 0, 1⟩, ⟨.dataCharacters, 1, 1⟩, ⟨.dataCharacters, 1, 2⟩]
    let below : Grouped Replay := ⟨.runs, ⟨tokens⟩⟩
    Contiguous tokens (String.utf8ByteSize "ab") ∧ ∃ first second,
      (Lexer.idle below).start "ab" 0 2 0 = .ok first ∧
      (Lexer.idle (Grouped.mk .runs below)).start "ab" 0 2 0 = .ok second ∧
      first.tape.tokens = [⟨.dataCharacters, 0, 2⟩] ∧ second.tape.tokens = first.tape.tokens ∧
      Group.Unbroken .runs tokens := by
  intro tokens below
  have hcontiguous : Contiguous tokens (String.utf8ByteSize "ab") :=
    ⟨by decide, by decide, by decide, by decide⟩
  obtain ⟨first, second, _, hfirst, hsecond, -, hiff, -⟩ :=
    regrouped_iff_unbroken .runs tokens "ab" 0 2 0 hcontiguous
  refine ⟨hcontiguous, first, second, hfirst, hsecond, ?_⟩
  cases hfirst
  cases hsecond
  have htokens : ((Replay.mk tokens).tape "ab" 0 |>.group .runs).tokens =
    [⟨.dataCharacters, 0, 2⟩] := by decide +kernel
  have hsame : (((Replay.mk tokens).tape "ab" 0 |>.group .runs).group .runs).tokens =
    ((Replay.mk tokens).tape "ab" 0 |>.group .runs).tokens := by decide +kernel
  exact ⟨htokens, hsame, hiff.mp hsame⟩

/-- White space of no length between two pieces of text keeps them apart when they are grouped once,
    but not when they are grouped twice. -/
theorem regrouped_ne_grouped :
    let tokens : List Token := [⟨.dataCharacters, 0, 1⟩, ⟨.whiteSpace, 1, 1⟩, ⟨.dataCharacters, 1, 2⟩]
    let below : Grouped Replay := ⟨.runs, ⟨tokens⟩⟩
    Contiguous tokens (String.utf8ByteSize "ab") ∧ ∃ first second,
      (Lexer.idle below).start "ab" 0 2 0 = .ok first ∧
      (Lexer.idle (Grouped.mk .runs below)).start "ab" 0 2 0 = .ok second ∧
      first.tape.tokens = [⟨.dataCharacters, 0, 1⟩, ⟨.dataCharacters, 1, 2⟩] ∧
      second.tape.tokens = [⟨.dataCharacters, 0, 2⟩] :=
  ⟨⟨by decide, by decide, by decide, by decide⟩, _, _, rfl, rfl, by decide +kernel, by decide +kernel⟩

end Replay

end Relex
