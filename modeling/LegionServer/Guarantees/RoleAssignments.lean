import LegionServer.Source.DungeonFinding.LFGQueue

/-!
# Role assignments

`CheckGroupRoles` finds one role for every player of a group exactly where there is
such a choice, writes it into the map, and leaves the map as it was where there is none.
-/
namespace LegionServer.Guarantees.RoleAssignments
open Library Source.DungeonFinding LfgRolesMap List

variable {K : Type*} {check : LfgRolesMap K → Option (Bool × LfgRolesMap K)}
  {groles groles' l l' : LfgRolesMap K} {mask bit role : BitVec 8} {it : Nat}

def groupRoles : List (BitVec 8) := [PLAYER_ROLE_DAMAGE, PLAYER_ROLE_HEALER, PLAYER_ROLE_TANK]

/-- A mask over leader, tank, healer and damage. -/
def Known (mask : BitVec 8) : Prop := mask &&& ~~~PLAYER_ROLE_ANY = 0

instance : DecidablePred Known := fun _ => inferInstanceAs (Decidable (_ = _))

def holders (role : BitVec 8) (groles : LfgRolesMap K) : Nat :=
  groles.countP fun player => withoutLeader player.2 = role

/-- A player who keeps one of the roles of the mask, and the leader bit. -/
def Chosen (player player' : K × BitVec 8) : Prop :=
  player'.1 = player.1 ∧ player'.2 &&& PLAYER_ROLE_LEADER = player.2 &&& PLAYER_ROLE_LEADER ∧
    ∃ role ∈ groupRoles, player.2 &&& role ≠ 0 ∧ withoutLeader player'.2 = role

structure Assigned (groles groles' : LfgRolesMap K) : Prop where
  chosen : List.Forall₂ Chosen groles groles'
  tank : holders PLAYER_ROLE_TANK groles' ≤ LFG_TANKS_NEEDED
  healer : holders PLAYER_ROLE_HEALER groles' ≤ LFG_HEALERS_NEEDED
  damage : holders PLAYER_ROLE_DAMAGE groles' ≤ LFG_DPS_NEEDED

def Assignable (groles : LfgRolesMap K) : Prop := ∃ groles', Assigned groles groles'

/-- The cast to `uint8` does not make the number of players a number of roles. -/
def Countable (groles : LfgRolesMap K) : Prop :=
  groles.length < 256 ∨ LFG_TANKS_NEEDED + LFG_HEALERS_NEEDED + LFG_DPS_NEEDED < groles.length % 256

structure Searched (groles : LfgRolesMap K) (result : Bool × LfgRolesMap K) : Prop where
  restored : result.1 = false → result.2 = groles
  sound : Countable groles → result.1 = true → Assigned groles result.2
  exhaustive : Countable groles → result.1 = false → ¬Assignable groles

theorem known_sub : ∀ mask : BitVec 8, Known mask → ∀ bit ∈ groupRoles,
    withoutLeader mask &&& bit ≠ 0 →
    Known (mask - bit) ∧ mask - bit + bit = mask ∧ (mask - bit).toNat < mask.toNat ∧
      (mask - bit) &&& PLAYER_ROLE_LEADER = mask &&& PLAYER_ROLE_LEADER := by
  decide +kernel

theorem role_of_sub : ∀ mask : BitVec 8, Known mask → ∀ bit ∈ groupRoles,
    withoutLeader mask &&& bit ≠ 0 → ∀ role ∈ groupRoles,
    (mask - bit &&& role ≠ 0 ↔ mask &&& role ≠ 0 ∧ role ≠ bit) := by
  decide +kernel

theorem exists_other : ∀ mask : BitVec 8, Known mask → withoutLeader mask ∉ groupRoles →
    ∀ role ∈ groupRoles, mask &&& role ≠ 0 →
    ∃ bit ∈ groupRoles, withoutLeader mask &&& bit ≠ 0 ∧ role ≠ bit := by
  decide +kernel

theorem role_of_single : ∀ mask : BitVec 8, withoutLeader mask ∈ groupRoles →
    ∀ role ∈ groupRoles, (mask &&& role ≠ 0 ↔ role = withoutLeader mask) := by
  decide +kernel

theorem role_of_role : ∀ role ∈ groupRoles, ∀ bit ∈ groupRoles,
    (role &&& bit ≠ 0 ↔ role = bit) := by
  decide

theorem no_role : ∀ mask : BitVec 8, withoutLeader mask = PLAYER_ROLE_NONE →
    ∀ role ∈ groupRoles, mask &&& role = 0 := by
  decide +kernel

section choices

variable {a b : LfgRolesMap K} {player : K × BitVec 8}

@[simp] theorem second_split : second (a ++ player :: b) a.length = player.2 := by
  simp [second]

@[simp] theorem setSecond_split :
    setSecond (a ++ player :: b) a.length mask = a ++ (player.1, mask) :: b := by
  induction a with
  | nil => rfl
  | cons x a ih => exact congrArg (x :: ·) ih

theorem forall₂_split {R : K × BitVec 8 → K × BitVec 8 → Prop}
    (h : List.Forall₂ R (a ++ player :: b) l') :
    ∃ player', R player player' ∧ ∀ other, R other player' →
      List.Forall₂ R (a ++ other :: b) l' := by
  induction a generalizing l' with
  | nil =>
    obtain _ | ⟨hplayer, hrest⟩ := h
    exact ⟨_, hplayer, fun other hother => .cons hother hrest⟩
  | cons x a ih =>
    obtain _ | ⟨hx, hrest⟩ := h
    obtain ⟨player', hplayer, hother⟩ := ih hrest
    exact ⟨player', hplayer, fun other h => .cons hx (hother other h)⟩

variable {k : K}

theorem Assigned.of_sub (hknown : Known mask) (hbit : bit ∈ groupRoles)
    (hhas : withoutLeader mask &&& bit ≠ 0) (h : Assigned (a ++ (k, mask - bit) :: b) l') :
    Assigned (a ++ (k, mask) :: b) l' := by
  obtain ⟨player', ⟨hkey, hleader, role, hrole, hin, heq⟩, hother⟩ := forall₂_split h.chosen
  have hleader' := (known_sub mask hknown bit hbit hhas).2.2.2
  have hin' := (role_of_sub mask hknown bit hbit hhas role hrole).mp hin
  exact { h with chosen := hother _ ⟨hkey, hleader.trans hleader', role, hrole, hin'.1, heq⟩ }

theorem Assigned.exists_sub (hknown : Known mask) (hmany : withoutLeader mask ∉ groupRoles)
    (h : Assigned (a ++ (k, mask) :: b) l') :
    ∃ bit ∈ groupRoles, withoutLeader mask &&& bit ≠ 0 ∧
      Assigned (a ++ (k, mask - bit) :: b) l' := by
  obtain ⟨player', ⟨hkey, hleader, role, hrole, hin, heq⟩, hother⟩ := forall₂_split h.chosen
  obtain ⟨bit, hbit, hhas, hne⟩ := exists_other mask hknown hmany role hrole hin
  have hleader' := (known_sub mask hknown bit hbit hhas).2.2.2
  have hin' := (role_of_sub mask hknown bit hbit hhas role hrole).mpr ⟨hin, hne⟩
  refine ⟨bit, hbit, hhas, { h with chosen := hother _ ?_ }⟩
  exact ⟨hkey, hleader.trans hleader'.symm, role, hrole, hin', heq⟩

theorem not_assignable_of_none (hmask : withoutLeader mask = PLAYER_ROLE_NONE) :
    ¬Assignable (a ++ (k, mask) :: b) := by
  rintro ⟨l', h⟩
  obtain ⟨player', ⟨-, -, role, hrole, hin, -⟩, -⟩ := forall₂_split h.chosen
  exact hin (no_role mask hmask role hrole)

theorem holders_le (hrole : role ∈ groupRoles) (h : List.Forall₂ Chosen groles l') :
    holders role groles ≤ holders role l' := by
  induction h with
  | nil => exact Nat.le_refl _
  | @cons player player' l l' hplayer _ ih =>
    obtain ⟨-, -, other, hother, hin, heq⟩ := hplayer
    simp only [holders, countP_cons, decide_eq_true_eq] at ih ⊢
    by_cases hsingle : withoutLeader player.2 = role
    · have hsame := (role_of_single player.2 (hsingle ▸ hrole) other hother).mp hin
      rw [if_pos hsingle, if_pos (heq.trans (hsame.trans hsingle))]
      omega
    · rw [if_neg hsingle]
      omega

theorem Assigned.length_eq (h : Assigned groles l') :
    groles.length = holders PLAYER_ROLE_TANK l' + holders PLAYER_ROLE_HEALER l' +
      holders PLAYER_ROLE_DAMAGE l' := by
  have hchosen := h.chosen
  clear h
  induction hchosen with
  | nil => rfl
  | @cons player player' l l' hplayer _ ih =>
    obtain ⟨-, -, other, hother, -, heq⟩ := hplayer
    simp only [holders, countP_cons, length_cons, decide_eq_true_eq, heq] at ih ⊢
    simp only [groupRoles, mem_cons, not_mem_nil, or_false] at hother
    rcases hother with rfl | rfl | rfl <;>
      simp [PLAYER_ROLE_TANK, PLAYER_ROLE_HEALER, PLAYER_ROLE_DAMAGE] at ih ⊢ <;> omega

theorem Assigned.length_le (h : Assigned groles l') :
    groles.length ≤ LFG_TANKS_NEEDED + LFG_HEALERS_NEEDED + LFG_DPS_NEEDED := by
  have hlength := h.length_eq
  have htank := h.tank
  have hhealer := h.healer
  have hdamage := h.damage
  omega

theorem holders_add (groles : LfgRolesMap K) :
    holders PLAYER_ROLE_TANK groles + holders PLAYER_ROLE_HEALER groles +
        holders PLAYER_ROLE_DAMAGE groles =
      groles.countP fun player => withoutLeader player.2 ∈ groupRoles := by
  induction groles with
  | nil => rfl
  | cons player l ih =>
    simp only [holders, countP_cons, decide_eq_true_eq] at ih ⊢
    have hdisjoint : ∀ role : BitVec 8,
        (if role = PLAYER_ROLE_TANK then 1 else 0) + (if role = PLAYER_ROLE_HEALER then 1 else 0) +
          (if role = PLAYER_ROLE_DAMAGE then 1 else 0) =
        if role ∈ groupRoles then 1 else 0 := by decide +kernel
    have hplayer := hdisjoint (withoutLeader player.2)
    omega

end choices

section search

/-- The sum of the masks, which every call from within the loop lowers. -/
def weight (groles : LfgRolesMap K) : Nat := (groles.map fun player => player.2.toNat).sum

def AllKnown (groles : LfgRolesMap K) : Prop := ∀ player ∈ groles, Known player.2

instance : DecidablePred (AllKnown (K := K)) := fun _ => List.decidableBAll _ _

def LeftWell (groles : LfgRolesMap K) : Leave K → Prop
  | .returned result groles' => Searched groles (result, groles')
  | .tooDeep => False

/-- Left with the assignment that a call from within the loop has found. -/
def Found (groles : LfgRolesMap K) (e : Leave K) : Prop :=
  LeftWell groles e ∧ ∃ left, e = .returned true left

/-- Where the loop stands after the players of `seen`. -/
structure Walked (groles seen : LfgRolesMap K) (s : RoleCounts × LfgRolesMap K) : Prop where
  unchanged : s.2 = groles
  damage : s.1.damage = holders PLAYER_ROLE_DAMAGE seen
  healer : s.1.healer = holders PLAYER_ROLE_HEALER seen
  tank : s.1.tank = holders PLAYER_ROLE_TANK seen
  damage_le : s.1.damage ≤ LFG_DPS_NEEDED
  healer_le : s.1.healer ≤ LFG_HEALERS_NEEDED
  tank_le : s.1.tank ≤ LFG_TANKS_NEEDED
  /-- All ways to take a role from a player with several have failed. -/
  tried : Countable groles → (∃ player ∈ seen, withoutLeader player.2 ∉ groupRoles) →
    ¬Assignable groles

variable {a b : LfgRolesMap K} {k : K} {s : RoleCounts × LfgRolesMap K} {count needed : Nat}

def ChecksBelow (check : LfgRolesMap K → Option (Bool × LfgRolesMap K))
    (groles : LfgRolesMap K) : Prop :=
  ∀ less, AllKnown less → weight less < weight groles → less ≠ [] →
    ∃ result, check less = some result ∧ Searched less result

theorem countRole_other (h : role &&& bit = 0) :
    countRole check bit needed it role count groles = .ok (count, groles) := by
  rw [countRole, if_neg (not_not_intro h)]

theorem countRole_single (h : role &&& bit ≠ 0) (hrole : role = bit) :
    countRole check bit needed it role count groles =
      if count = needed then .error (.returned false groles) else .ok (count + 1, groles) := by
  rw [countRole, if_pos h, if_neg (not_not_intro hrole)]

theorem countable_congr (h : groles.length = groles'.length) :
    Countable groles ↔ Countable groles' := by
  simp [Countable, h]

theorem countRole_many (hchecks : ChecksBelow check (a ++ (k, mask) :: b))
    (hknown : AllKnown (a ++ (k, mask) :: b)) (hbit : bit ∈ groupRoles)
    (hmany : withoutLeader mask ∉ groupRoles) :
    Ends (Found (a ++ (k, mask) :: b))
      (countRole check bit needed a.length (withoutLeader mask) count (a ++ (k, mask) :: b))
      fun r => r = (count, a ++ (k, mask) :: b) ∧
        (withoutLeader mask &&& bit ≠ 0 → Countable (a ++ (k, mask) :: b) →
          ¬Assignable (a ++ (k, mask - bit) :: b)) := by
  by_cases hhas : withoutLeader mask &&& bit = 0
  · rw [countRole_other hhas]
    exact ⟨rfl, fun h => absurd hhas h⟩
  have hmask : Known mask := hknown (k, mask) (by simp)
  obtain ⟨hless, hback, hlt, -⟩ := known_sub mask hmask bit hbit hhas
  have hne : withoutLeader mask ≠ bit := fun h => hmany (h ▸ hbit)
  rw [countRole, if_pos hhas, if_pos hne, second_split, setSecond_split]
  obtain ⟨⟨result, left⟩, hresult, hsearched⟩ := hchecks (a ++ (k, mask - bit) :: b)
    (fun player hplayer => by
      rcases mem_append.mp hplayer with hmem | hmem
      · exact hknown player (mem_append_left _ hmem)
      · rcases mem_cons.mp hmem with rfl | hmem
        · exact hless
        · exact hknown player (mem_append_right _ (mem_cons_of_mem _ hmem)))
    (by simp only [weight, map_append, map_cons, sum_append, sum_cons]; omega)
    (by simp)
  have hcountable : Countable (a ++ (k, mask) :: b) ↔ Countable (a ++ (k, mask - bit) :: b) :=
    countable_congr (by simp)
  rw [hresult]
  cases result with
  | true =>
    refine Ends.error ⟨⟨(nomatch ·), fun h _ => ?_, fun _ => (nomatch ·)⟩, left, rfl⟩
    exact (hsearched.sound (hcountable.mp h) rfl).of_sub hmask hbit hhas
  | false =>
    have hleft : left = a ++ (k, mask - bit) :: b := hsearched.restored rfl
    subst hleft
    refine Ends.ok ⟨?_, fun _ h => hsearched.exhaustive (hcountable.mp h) rfl⟩
    simp [hback]

theorem not_assignable_of_holders (hrole : role ∈ groupRoles)
    (hneeded : ∀ l', Assigned groles l' → holders role l' ≤ needed)
    (h : needed < holders role groles) : ¬Assignable groles := by
  rintro ⟨l', hl'⟩
  have hle := holders_le hrole hl'.chosen
  have hbound := hneeded l' hl'
  omega

theorem leftWell_of_not (h : ¬Assignable groles) : LeftWell groles (.returned false groles) :=
  ⟨fun _ => rfl, fun _ => (nomatch ·), fun _ _ => h⟩

theorem holders_snoc {player : K × BitVec 8} :
    holders role (a ++ [player]) =
      holders role a + if withoutLeader player.2 = role then 1 else 0 := by
  simp [holders, countP_append, countP_cons]

theorem holders_split {player : K × BitVec 8} :
    holders role (a ++ [player]) ≤ holders role (a ++ player :: b) := by
  simp only [holders, countP_append, countP_cons, countP_nil]
  omega

variable {player : K × BitVec 8}

structure Counted (groles seen : LfgRolesMap K) (player : K × BitVec 8) (bit : BitVec 8)
    (needed : Nat) (r : Nat × LfgRolesMap K) : Prop where
  unchanged : r.2 = groles
  count : r.1 = holders bit (seen ++ [player])
  count_le : r.1 ≤ needed

theorem countRole_one (hgroles : groles = a ++ player :: b) (hbit : bit ∈ groupRoles)
    (hsingle : withoutLeader player.2 ∈ groupRoles) (hcount : count = holders bit a)
    (hle : count ≤ needed) (hneeded : ∀ l', Assigned groles l' → holders bit l' ≤ needed) :
    Ends (LeftWell groles) (countRole check bit needed it (withoutLeader player.2) count groles)
      (Counted groles a player bit needed) := by
  have honly := role_of_role _ hsingle bit hbit
  by_cases hrole : withoutLeader player.2 = bit
  · rw [countRole_single (honly.mpr hrole) hrole]
    have hnext : holders bit (a ++ [player]) = count + 1 := by
      rw [holders_snoc, if_pos hrole, hcount]
    split
    case isTrue hfull =>
      have hmore : holders bit (a ++ [player]) ≤ holders bit groles := hgroles ▸ holders_split
      exact Ends.error (leftWell_of_not (not_assignable_of_holders hbit hneeded (by omega)))
    case isFalse hroom => exact Ends.ok ⟨rfl, hnext.symm, Nat.lt_of_le_of_ne hle hroom⟩
  · rw [countRole_other (not_not.mp (mt honly.mp hrole))]
    refine Ends.ok ⟨rfl, ?_, hle⟩
    rw [holders_snoc, if_neg hrole, hcount, Nat.add_zero]

/-- One visit of the search, with the recursion below it. -/
theorem visit_ends (hchecks : ChecksBelow check groles) (hknown : AllKnown groles)
    (hgroles : groles = a ++ player :: b) (h : Walked groles a s) :
    Ends (LeftWell groles) (visit check s a.length) (Walked groles (a ++ [player])) := by
  have hsecond : second s.2 a.length = player.2 := by rw [h.unchanged, hgroles, second_split]
  rw [visit, hsecond, h.unchanged]
  simp only
  split
  case isTrue hnone =>
    have hnot : ¬Assignable groles := hgroles ▸ not_assignable_of_none hnone
    exact Ends.error (leftWell_of_not hnot)
  case isFalse hsome =>
  by_cases hsingle : withoutLeader player.2 ∈ groupRoles
  · have htried : Countable groles →
        (∃ other ∈ a ++ [player], withoutLeader other.2 ∉ groupRoles) → ¬Assignable groles := by
      rintro hcountable ⟨other, hother, hmany⟩
      rcases mem_append.mp hother with hmem | hmem
      · exact h.tried hcountable ⟨other, hmem, hmany⟩
      · rw [mem_singleton.mp hmem] at hmany
        exact absurd hsingle hmany
    refine (countRole_one hgroles (by decide) hsingle h.damage h.damage_le
      fun _ hl' => hl'.damage).bind fun damage hdamage => ?_
    rw [hdamage.unchanged]
    refine (countRole_one hgroles (by decide) hsingle h.healer h.healer_le
      fun _ hl' => hl'.healer).bind fun healer hhealer => ?_
    rw [hhealer.unchanged]
    refine (countRole_one hgroles (by decide) hsingle h.tank h.tank_le
      fun _ hl' => hl'.tank).bind fun tank htank => ?_
    exact Ends.ok ⟨htank.unchanged, hdamage.count, hhealer.count, htank.count, hdamage.count_le,
      hhealer.count_le, htank.count_le, htried⟩
  · obtain ⟨k, mask⟩ := player
    subst hgroles
    have hsame : ∀ role ∈ groupRoles, holders role (a ++ [(k, mask)]) = holders role a := by
      intro role hrole
      have hne : withoutLeader mask ≠ role := fun h => hsingle (h ▸ hrole)
      rw [holders_snoc, if_neg hne, Nat.add_zero]
    refine ((countRole_many hchecks hknown (by decide) hsingle).allow fun _ => And.left).bind ?_
    rintro - ⟨rfl, hdamage⟩
    refine ((countRole_many hchecks hknown (by decide) hsingle).allow fun _ => And.left).bind ?_
    rintro - ⟨rfl, hhealer⟩
    refine ((countRole_many hchecks hknown (by decide) hsingle).allow fun _ => And.left).bind ?_
    rintro - ⟨rfl, htank⟩
    refine Ends.ok ⟨rfl, ?_, ?_, ?_, h.damage_le, h.healer_le, h.tank_le, ?_⟩
    · exact h.damage.trans (hsame _ (by decide)).symm
    · exact h.healer.trans (hsame _ (by decide)).symm
    · exact h.tank.trans (hsame _ (by decide)).symm
    · rintro hcountable - ⟨l', hl'⟩
      have hmask : Known mask := hknown (k, mask) (by simp)
      obtain ⟨bit, hbit, hhas, hsub⟩ := hl'.exists_sub hmask hsingle
      simp only [groupRoles, mem_cons, not_mem_nil, or_false] at hbit
      rcases hbit with rfl | rfl | rfl
      · exact hdamage hhas hcountable ⟨l', hsub⟩
      · exact hhealer hhas hcountable ⟨l', hsub⟩
      · exact htank hhas hcountable ⟨l', hsub⟩

theorem walk_ends (hchecks : ChecksBelow check groles) (hknown : AllKnown groles) :
    Ends (LeftWell groles) (walk check groles) (Walked groles groles) := by
  have hstart : Walked groles [] (({}, groles) : RoleCounts × LfgRolesMap K) :=
    ⟨rfl, rfl, rfl, rfl, Nat.zero_le _, Nat.zero_le _, Nat.zero_le _, by simp⟩
  have hloop : ∀ b a : LfgRolesMap K, ∀ s, groles = a ++ b → Walked groles a s →
      Ends (LeftWell groles) ((range' a.length b.length).foldlM (visit check) s)
        (Walked groles groles) := by
    intro b
    induction b with
    | nil =>
      intro a s hgroles h
      rw [append_nil] at hgroles
      exact Ends.ok (hgroles ▸ h)
    | cons player b ih =>
      intro a s hgroles h
      refine (visit_ends hchecks hknown hgroles h).bind fun s' h' => ?_
      have hrest := ih (a ++ [player]) s' (by simp [hgroles]) h'
      rwa [length_append, length_singleton] at hrest
  rw [walk, range_eq_range']
  exact hloop groles [] _ rfl hstart

theorem chosen_self (hsingle : withoutLeader player.2 ∈ groupRoles) : Chosen player player :=
  ⟨rfl, rfl, _, hsingle, (role_of_single player.2 hsingle _ hsingle).mpr rfl, rfl⟩

theorem searched_complete {counts : RoleCounts} {left : LfgRolesMap K}
    (h : Walked groles groles (counts, left)) : Searched groles (complete counts left, left) := by
  have hleft : left = groles := h.unchanged
  subst hleft
  have hdamage : counts.damage = _ := h.damage
  have hhealer : counts.healer = _ := h.healer
  have htank : counts.tank = _ := h.tank
  have hadd := holders_add left
  have hdamageLe : counts.damage ≤ _ := h.damage_le
  have hhealerLe : counts.healer ≤ _ := h.healer_le
  have htankLe : counts.tank ≤ _ := h.tank_le
  refine ⟨fun _ => rfl, fun hcountable hcomplete => ?_, fun hcountable hcomplete => ?_⟩
  · rw [complete, beq_iff_eq] at hcomplete
    have hall : ∀ player ∈ left, withoutLeader player.2 ∈ groupRoles := by
      have hlength : left.countP (fun player => withoutLeader player.2 ∈ groupRoles) =
          left.length := by
        rcases hcountable with hsmall | hlarge
        · rw [Nat.mod_eq_of_lt hsmall] at hcomplete
          omega
        · omega
      simpa using countP_eq_length.mp hlength
    refine ⟨?_, htank ▸ htankLe, hhealer ▸ hhealerLe, hdamage ▸ hdamageLe⟩
    exact forall₂_same.mpr fun player hplayer => chosen_self (hall player hplayer)
  · by_cases hmany : ∃ player ∈ left, withoutLeader player.2 ∉ groupRoles
    · exact h.tried hcountable hmany
    · push Not at hmany
      have hlength : left.countP (fun player => withoutLeader player.2 ∈ groupRoles) =
          left.length := countP_eq_length.mpr (by simpa using hmany)
      have hbound : left.length ≤ LFG_TANKS_NEEDED + LFG_HEALERS_NEEDED + LFG_DPS_NEEDED := by omega
      have hmod : left.length % 256 = left.length :=
        Nat.mod_eq_of_lt (Nat.lt_of_le_of_lt hbound (by decide))
      rw [complete, hmod, beq_eq_false_iff_ne] at hcomplete
      exact absurd (by omega) hcomplete

theorem checkGroupRoles_searched (depth : Nat) (hknown : AllKnown groles) (hne : groles ≠ [])
    (hdepth : weight groles < depth) :
    ∃ result, checkGroupRoles depth groles = some result ∧ Searched groles result := by
  induction depth generalizing groles with
  | zero => exact absurd hdepth (Nat.not_lt_zero _)
  | succ depth ih =>
    have hchecks : ChecksBelow (checkGroupRoles depth) groles := fun less hless hlt hsome =>
      ih hless hsome (Nat.lt_of_lt_of_le hlt (Nat.le_of_lt_succ hdepth))
    have hwalk := walk_ends hchecks hknown
    rw [LfgRolesMap.checkGroupRoles, if_neg hne]
    cases hresult : walk (checkGroupRoles depth) groles with
    | ok s => exact ⟨_, rfl, searched_complete (hwalk.post_of_ok hresult)⟩
    | error e =>
      have hleft := hwalk.may_of_error hresult
      cases e with
      | returned result left => exact ⟨_, rfl, hleft⟩
      | tooDeep => exact hleft.elim

end search

section depth

universe u

/-- A run that goes on to the same end where more calls come back. -/
def Extends {α : Type*} (r r' : Except (Leave K) α) : Prop := r = .error .tooDeep ∨ r' = r

variable {check' : LfgRolesMap K → Option (Bool × LfgRolesMap K)}

theorem Extends.bind {α β : Type u} {r r' : Except (Leave K) α} {f f' : α → Except (Leave K) β}
    (h : Extends r r') (hf : ∀ a, Extends (f a) (f' a)) : Extends (r >>= f) (r' >>= f') := by
  rcases h with rfl | rfl
  · exact .inl rfl
  · cases r' with
    | ok a => exact hf a
    | error e => exact .inr rfl

section
variable (h : ∀ l r, check l = some r → check' l = some r)
include h

theorem countRole_extends {count needed : Nat} :
    Extends (countRole check bit needed it role count groles)
      (countRole check' bit needed it role count groles) := by
  rw [countRole, countRole]
  split
  · split
    · cases hcheck : check (groles.setSecond it (groles.second it - bit)) with
      | none => exact .inl rfl
      | some r =>
        rw [h _ _ hcheck]
        exact .inr rfl
    · exact .inr rfl
  · exact .inr rfl

theorem visit_extends (s : RoleCounts × LfgRolesMap K) (it : Nat) :
    Extends (visit check s it) (visit check' s it) := by
  rw [visit, visit]
  split
  · exact .inr rfl
  · exact (countRole_extends h).bind fun _ => (countRole_extends h).bind fun _ =>
      (countRole_extends h).bind fun _ => .inr rfl

theorem walk_extends : Extends (walk check groles) (walk check' groles) := by
  rw [walk, walk]
  generalize ((({}, groles) : RoleCounts × LfgRolesMap K)) = s
  induction range groles.length generalizing s with
  | nil => exact .inr rfl
  | cons it its ih =>
    exact (visit_extends h s it).bind ih

end

/-- A result does not depend on how deep the call may go. -/
theorem checkGroupRoles_mono {depth depth' : Nat} (hle : depth ≤ depth')
    {result : Bool × LfgRolesMap K} (h : checkGroupRoles depth groles = some result) :
    checkGroupRoles depth' groles = some result := by
  induction depth generalizing depth' groles result with
  | zero => exact nomatch h
  | succ depth ih =>
    obtain ⟨depth', rfl⟩ : ∃ n, depth' = n + 1 := ⟨depth' - 1, by omega⟩
    rw [LfgRolesMap.checkGroupRoles] at h ⊢
    have hwalk : Extends (walk (checkGroupRoles depth) groles)
        (walk (checkGroupRoles depth') groles) :=
      walk_extends fun l r => ih (Nat.le_of_succ_le_succ hle)
    rcases hwalk with hdeep | heq
    · rw [hdeep] at h
      split at h
      · rw [if_pos ‹_›]
        exact h
      · exact nomatch h
    · rwa [heq]

end depth

/-- The search ends, and it finds an assignment of roles exactly when there is one; a search that
fails leaves the roles as they were. -/
theorem checkGroupRoles_decides (hknown : AllKnown groles) (hne : groles ≠ []) :
    ∃ result, (∀ depth, weight groles < depth → checkGroupRoles depth groles = some result) ∧
      (result.1 = false → result.2 = groles) ∧
      (Countable groles → (result.1 = true ↔ Assignable groles) ∧
        (result.1 = true → Assigned groles result.2)) := by
  obtain ⟨result, hresult, hsearched⟩ :=
    checkGroupRoles_searched (weight groles + 1) hknown hne (Nat.lt_succ_self _)
  refine ⟨result, fun depth hdepth => checkGroupRoles_mono hdepth hresult, hsearched.restored,
    fun hcountable => ⟨⟨fun h => ⟨_, hsearched.sound hcountable h⟩, fun h => ?_⟩,
      hsearched.sound hcountable⟩⟩
  by_contra hfalse
  exact hsearched.exhaustive hcountable (Bool.not_eq_true _ ▸ hfalse) h

section crowd

def crowd (players : Nat) : LfgRolesMap Nat :=
  (List.range players).map fun guid => (guid, PLAYER_ROLE_TANK ||| PLAYER_ROLE_HEALER)

variable {players : Nat}

@[simp] theorem length_crowd : (crowd players).length = players := by
  simp [crowd]

theorem crowd_known : AllKnown (crowd players) := by
  intro player hplayer
  obtain ⟨guid, -, rfl⟩ := mem_map.mp hplayer
  exact (by decide : Known (PLAYER_ROLE_TANK ||| PLAYER_ROLE_HEALER))

theorem walk_crowd {check : LfgRolesMap Nat → Option (Bool × LfgRolesMap Nat)}
    (hchecks : ChecksBelow check (crowd players)) :
    Ends (Found (crowd players)) (walk check (crowd players))
      fun s => s = ({}, crowd players) := by
  refine (Ends.foldlM (fun its s => (∀ it ∈ its, it < players) ∧ s = (({}, crowd players) :
    RoleCounts × LfgRolesMap Nat)) ?_ _ _ ⟨by simp, rfl⟩).mono fun s hs => hs.2
  rintro it its s ⟨hits, rfl⟩
  have hit : it < (crowd players).length := by simpa using hits it mem_cons_self
  obtain ⟨a, b, ha, hsplit⟩ : ∃ a b, a.length = it ∧
      crowd players = a ++ (it, PLAYER_ROLE_TANK ||| PLAYER_ROLE_HEALER) :: b := by
    refine ⟨(crowd players).take it, (crowd players).drop (it + 1), ?_, ?_⟩
    · exact length_take_of_le (Nat.le_of_lt hit)
    · have hget : (crowd players)[it] = (it, PLAYER_ROLE_TANK ||| PLAYER_ROLE_HEALER) := by
        simp [crowd]
      rw [← hget, getElem_cons_drop, take_append_drop]
  have hknown : AllKnown (crowd players) := crowd_known
  rw [hsplit] at hchecks hknown ⊢
  subst ha
  rw [visit, second_split, if_neg (by decide : withoutLeader (PLAYER_ROLE_TANK |||
    PLAYER_ROLE_HEALER) ≠ PLAYER_ROLE_NONE)]
  refine (countRole_many hchecks hknown (by decide) (by decide)).bind ?_
  rintro - ⟨rfl, -⟩
  refine (countRole_many hchecks hknown (by decide) (by decide)).bind ?_
  rintro - ⟨rfl, -⟩
  refine (countRole_many hchecks hknown (by decide) (by decide)).bind ?_
  rintro - ⟨rfl, -⟩
  exact ⟨fun it hit => hits it (mem_cons_of_mem _ hit), rfl⟩

/-- `uint8(groles.size())` is 0 for such a crowd, and so is the number of roles counted. -/
theorem checkGroupRoles_crowd (hpos : 0 < players) (hwrap : players % 256 = 0) :
    ∃ left, ∀ depth, weight (crowd players) < depth →
      checkGroupRoles depth (crowd players) = some (true, left) := by
  have hne : crowd players ≠ [] := fun h => by
    have hlength := congrArg List.length h
    rw [length_crowd] at hlength
    exact absurd hlength (Nat.ne_of_gt hpos)
  have hchecks : ChecksBelow (checkGroupRoles (weight (crowd players))) (crowd players) :=
    fun less hless hlt hsome => checkGroupRoles_searched _ hless hsome hlt
  suffices h : ∃ left,
      checkGroupRoles (weight (crowd players) + 1) (crowd players) = some (true, left) by
    obtain ⟨left, hleft⟩ := h
    exact ⟨left, fun depth hdepth => checkGroupRoles_mono hdepth hleft⟩
  have hwalk := walk_crowd hchecks
  rw [LfgRolesMap.checkGroupRoles, if_neg hne]
  cases hs : walk (checkGroupRoles (weight (crowd players))) (crowd players) with
  | ok s =>
    rw [hwalk.post_of_ok hs]
    exact ⟨crowd players, by simp [complete, hwrap]⟩
  | error e =>
    obtain ⟨-, left, rfl⟩ := hwalk.may_of_error hs
    exact ⟨left, rfl⟩

/-- 256 players pass for a group, and there are not that many roles in one. -/
theorem crowd_accepted :
    ∃ left, (∀ depth, weight (crowd 256) < depth →
      checkGroupRoles depth (crowd 256) = some (true, left)) ∧ ¬Assignable (crowd 256) := by
  obtain ⟨left, hleft⟩ := checkGroupRoles_crowd (by decide : 0 < 256) (by decide)
  refine ⟨left, hleft, ?_⟩
  rintro ⟨l', h⟩
  have hle := h.length_le
  rw [length_crowd] at hle
  exact absurd hle (by decide)

end crowd

/-- A tank, and a leader who heals or fights. -/
theorem checkGroupRoles_decides_pair :
    ∃ result, (∀ depth, weight [((0 : Nat), PLAYER_ROLE_TANK), (1, PLAYER_ROLE_LEADER |||
        PLAYER_ROLE_HEALER ||| PLAYER_ROLE_DAMAGE)] < depth →
      checkGroupRoles depth [(0, PLAYER_ROLE_TANK), (1, PLAYER_ROLE_LEADER |||
        PLAYER_ROLE_HEALER ||| PLAYER_ROLE_DAMAGE)] = some result) ∧
      (result.1 = false → result.2 = [(0, PLAYER_ROLE_TANK), (1, PLAYER_ROLE_LEADER |||
        PLAYER_ROLE_HEALER ||| PLAYER_ROLE_DAMAGE)]) ∧
      (Countable [((0 : Nat), PLAYER_ROLE_TANK), (1, PLAYER_ROLE_LEADER |||
        PLAYER_ROLE_HEALER ||| PLAYER_ROLE_DAMAGE)] →
        (result.1 = true ↔ Assignable [((0 : Nat), PLAYER_ROLE_TANK), (1, PLAYER_ROLE_LEADER |||
          PLAYER_ROLE_HEALER ||| PLAYER_ROLE_DAMAGE)]) ∧
        (result.1 = true → Assigned [(0, PLAYER_ROLE_TANK), (1, PLAYER_ROLE_LEADER |||
          PLAYER_ROLE_HEALER ||| PLAYER_ROLE_DAMAGE)] result.2)) :=
  checkGroupRoles_decides (by decide) (by decide)

end LegionServer.Guarantees.RoleAssignments
