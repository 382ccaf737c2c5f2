import LegionServer.Source.Chat.Channel

/-!
# Bans of a channel after a restart

A ban list is read without its prefix by taking two characters from the wrong end. No guid
of a list that the server wrote is read, so all bans are gone after a restart.
-/
namespace LegionServer.Guarantees.ChannelBans
open Library Source.Objects Source.Chat List

def legacyBanList (guids : List ObjectGuid) : List Char :=
  guids.flatMap fun guid => guid.toHexString.drop 2 ++ [' ']

/-- What a channel has stored after it was constructed from a list. -/
def restored (banList : List Char) : Except TextFault (Finset ObjectGuid) :=
  (Channel.ofBanList banList).map Channel.bannedStore

variable {guids : List ObjectGuid}

theorem restored_eq (banList : List Char) :
    restored banList = readBans ∅ (tokenize banList ' ' false) := by
  rw [restored, Channel.ofBanList]
  cases readBans ∅ (tokenize banList ' ' false) <;> rfl

theorem space_not_digit : Numerals.isDigit 16 ' ' = false := rfl

theorem tokenize_banList : tokenize (banList guids) ' ' false =
    guids.map ObjectGuid.toHexString := by
  have hlist : banList guids =
      (guids.map ObjectGuid.toHexString).flatMap fun word => word ++ [' '] := by
    rw [banList, flatMap_map]
  rw [hlist]
  apply tokenize_words
  intro word hword
  obtain ⟨guid, -, rfl⟩ := mem_map.mp hword
  refine ⟨cons_ne_nil _ _, ?_⟩
  intro hmem
  rcases mem_cons.mp hmem with hzero | hmem
  · cases hzero
  · rcases mem_cons.mp hmem with hx | hmem
    · cases hx
    · exact not_mem_digits guid space_not_digit hmem

theorem tokenize_legacy : tokenize (legacyBanList guids) ' ' false = guids.map digits := by
  have hlist : legacyBanList guids = (guids.map digits).flatMap fun word => word ++ [' '] := by
    rw [flatMap_map]
    rfl
  rw [hlist]
  apply tokenize_words
  intro word hword
  obtain ⟨guid, -, rfl⟩ := mem_map.mp hword
  exact ⟨ne_nil_of_length_pos (by rw [length_digits]; decide), not_mem_digits guid space_not_digit⟩

theorem restored_banList : restored (banList guids) = .ok ∅ := by
  rw [restored_eq, tokenize_banList]
  apply readBans_skip
  intro token htoken
  obtain ⟨guid, -, rfl⟩ := mem_map.mp htoken
  exact readBan_toHexString guid

theorem restored_legacy (hguids : ∀ guid ∈ guids, guid.isEmpty = false) :
    restored (legacyBanList guids) = .ok guids.toFinset := by
  rw [restored_eq, tokenize_legacy, readBans_digits hguids, Finset.empty_union]

/-- Of the guids of a store, in the order in which it is gone through, a list of the legacy form
restores the store. -/
theorem bans_survive_iff (bannedStore : Finset ObjectGuid) (guids : List ObjectGuid)
    (horder : guids.toFinset = bannedStore)
    (hguids : ∀ guid ∈ bannedStore, guid.isEmpty = false) :
    (restored (banList guids) = .ok bannedStore ↔ bannedStore = ∅) ∧
      restored (legacyBanList guids) = .ok bannedStore := by
  constructor
  · rw [restored_banList]
    constructor
    · intro h
      exact (Except.ok.inj h).symm
    · rintro rfl
      rfl
  · have hlist : ∀ guid ∈ guids, guid.isEmpty = false := fun guid hmem =>
      hguids guid (horder ▸ List.mem_toFinset.mpr hmem)
    rw [restored_legacy hlist, horder]

def bothBanned : List ObjectGuid := [⟨0x0800040000000000, 2⟩, ⟨0x0800040000000000, 1⟩]

theorem bans_survive_both :
    (restored (banList bothBanned) = .ok bothBanned.toFinset ↔ bothBanned.toFinset = ∅) ∧
      restored (legacyBanList bothBanned) = .ok bothBanned.toFinset :=
  bans_survive_iff bothBanned.toFinset bothBanned rfl (by decide)

/-- A player who was banned is not banned after the restart. -/
theorem ban_lost : ¬∀ (bannedStore : Finset ObjectGuid) (guids : List ObjectGuid),
    guids.toFinset = bannedStore → (∀ guid ∈ bannedStore, guid.isEmpty = false) →
      restored (banList guids) = .ok bannedStore := by
  intro h
  have hone := h {⟨0x0800040000000000, 1⟩} [⟨0x0800040000000000, 1⟩] (by decide) (by decide)
  exact absurd (Except.ok.inj hone) (by decide)

end LegionServer.Guarantees.ChannelBans
