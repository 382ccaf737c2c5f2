import LegionServer.Source.Chat.Channel

/-!
# Who owns a chat channel

Two calls leave a channel without a proper owner. An owner who kicks or bans himself is
erased and made owner all the same, through a reference into the store he was erased from.
-/
namespace LegionServer.Guarantees.ChannelOwnership
open Library Source.Chat List PlayerInfo

variable {G : Type*} [LinearOrder G] {channel : Channel G} {guid : G}

/-- The owner is a member, a moderator and the only one with the owner flag. -/
structure Owned (channel : Channel G) : Prop where
  owner : channel.players ≠ [] → ∃ entry ∈ channel.players, channel.ownerGuid = some entry.1
  flag : ∀ entry ∈ channel.players, entry.2.isOwner = true ↔ channel.ownerGuid = some entry.1
  moderator : ∀ entry ∈ channel.players, channel.ownerGuid = some entry.1 →
    entry.2.isModerator = true
  notBanned : ∀ entry ∈ channel.players, entry.1 ∉ channel.bannedStore

def Custom (channel : Channel G) : Prop :=
  channel.channelId = 0 ∧ channel.channelFlags = CHANNEL_FLAG_CUSTOM ∧
    channel.ownershipEnabled = true

def Good (s : Except ChannelFault (Channel G)) : Prop :=
  ∃ channel, s = .ok channel ∧ Owned channel ∧ Custom channel

/-- `JoinChannel` of a player who is neither on nor banned and knows the password. -/
def Admitted (channel : Channel G) (player : Player G) (pass : String) : Prop :=
  channel.isOn player.guid = false ∧ channel.isBanned player.guid = false ∧
    channel.checkPassword pass = true

def Proper (call : ChannelCall G) (channel : Channel G) : Prop :=
  match call.request with
  | .joinChannel pass => Admitted channel call.player pass →
      ¬(channel.players = [] ∧ channel.ownerGuid ≠ none ∧ channel.isOwnerInvisible = false)
  | .kickOrBan badname _ => ¬(channel.ownerGuid = some call.player.guid ∧
      badname = call.player.name ∧ ∃ entry ∈ channel.players, entry.1 ≠ call.player.guid)
  | _ => True

section Store

variable {f : PlayerInfo → PlayerInfo} {entry : G × PlayerInfo}

theorem mem_change :
    entry ∈ (channel.change guid f).players ↔
      ∃ old ∈ channel.players, (if old.1 = guid then (old.1, f old.2) else old) = entry :=
  mem_map

theorem mem_erase :
    entry ∈ (channel.erase guid).players ↔ entry ∈ channel.players ∧ entry.1 ≠ guid := by
  rw [Channel.erase, mem_filter, decide_eq_true_iff]

variable {info : PlayerInfo}

theorem mem_insert :
    entry ∈ (channel.insert guid info).players ↔ entry = (guid, info) ∨ entry ∈ channel.players :=
  mem_orderedInsert _

theorem find_some (h : channel.find guid = some info) : (guid, info) ∈ channel.players := by
  obtain ⟨entry, hfind, hinfo⟩ := Option.map_eq_some_iff.mp h
  have hguid : decide (entry.1 = guid) = true :=
    find?_some (p := fun entry : G × PlayerInfo => decide (entry.1 = guid)) hfind
  rw [← of_decide_eq_true hguid, ← hinfo]
  exact mem_of_find?_eq_some hfind

theorem isOn_iff : channel.isOn guid = true ↔ ∃ entry ∈ channel.players, entry.1 = guid := by
  rw [Channel.isOn, Channel.find, Option.isSome_map, find?_isSome]
  simp

theorem isOn_false_iff : channel.isOn guid = false ↔ ∀ entry ∈ channel.players, entry.1 ≠ guid := by
  rw [← Bool.not_eq_true, isOn_iff, not_exists]
  simp only [not_and, ne_eq]

theorem isOn_change {other : G} : (channel.change guid f).isOn other = channel.isOn other := by
  apply Bool.eq_iff_iff.mpr
  rw [isOn_iff, isOn_iff]
  constructor
  · rintro ⟨entry, hmem, rfl⟩
    obtain ⟨old, hold, rfl⟩ := mem_change.mp hmem
    exact ⟨old, hold, by split <;> rfl⟩
  · rintro ⟨old, hold, rfl⟩
    exact ⟨_, mem_change.mpr ⟨old, hold, rfl⟩, by split <;> rfl⟩

end Store

section Operations

theorem Owned.change (h : Owned channel) {f : PlayerInfo → PlayerInfo}
    (howner : ∀ info, (f info).isOwner = info.isOwner)
    (hmoderator : channel.ownerGuid = some guid →
      ∀ info, info.isModerator = true → (f info).isModerator = true) :
    Owned (channel.change guid f) where
  owner hne := by
    have hold : channel.players ≠ [] := fun hnil => hne (by rw [Channel.change, hnil]; rfl)
    obtain ⟨entry, hmem, hguid⟩ := h.owner hold
    refine ⟨_, mem_change.mpr ⟨entry, hmem, rfl⟩, ?_⟩
    split <;> exact hguid
  flag entry hmem := by
    obtain ⟨old, hold, rfl⟩ := mem_change.mp hmem
    split
    · rw [howner]
      exact h.flag old hold
    · exact h.flag old hold
  moderator entry hmem := by
    obtain ⟨old, hold, rfl⟩ := mem_change.mp hmem
    split
    · rename_i hguid
      intro howns
      rw [hguid] at howns
      exact hmoderator howns _ (h.moderator old hold (by rw [hguid]; exact howns))
    · exact h.moderator old hold
  notBanned entry hmem := by
    obtain ⟨old, hold, rfl⟩ := mem_change.mp hmem
    split <;> exact h.notBanned old hold

theorem isOn_clearOwner (channel : Channel G) (guid : G) :
    channel.clearOwner.isOn guid = channel.isOn guid := by
  rw [Channel.clearOwner]
  split
  · exact isOn_change
  · rfl

theorem setOwner_eq (hon : channel.isOn guid = true) :
    channel.setOwner guid = { ({ channel.clearOwner with ownerGuid := some guid } : Channel G).change
      guid (fun info => (info.setModerator true).setOwner true) with isDirty := true } :=
  if_pos ((isOn_clearOwner channel guid).trans hon)

theorem ownerGuid_setOwner (hon : channel.isOn guid = true) :
    (channel.setOwner guid).ownerGuid = some guid := by
  rw [setOwner_eq hon]
  rfl

theorem bannedStore_setOwner (hon : channel.isOn guid = true) :
    (channel.setOwner guid).bannedStore = channel.bannedStore := by
  rw [setOwner_eq hon]
  rw [Channel.clearOwner]
  split <;> rfl

variable {entry : G × PlayerInfo}

theorem mem_clearOwner (h : entry ∈ channel.clearOwner.players) :
    ∃ old ∈ channel.players, old.1 = entry.1 ∧
      (channel.ownerGuid = some entry.1 → entry.2.isOwner = false) ∧
      (channel.ownerGuid ≠ some entry.1 → entry = old) := by
  rw [Channel.clearOwner] at h
  split at h
  · rename_i owner howner
    obtain ⟨old, hold, rfl⟩ := mem_change.mp h
    refine ⟨old, hold, ?_⟩
    rw [howner]
    split
    · rename_i hsame
      exact ⟨rfl, fun _ => isOwner_setOwner .., fun hne => absurd (by rw [hsame]) hne⟩
    · rename_i hother
      exact ⟨rfl, fun h => absurd (Option.some.inj h).symm hother, fun _ => rfl⟩
  · rename_i howner
    exact ⟨entry, h, rfl, fun h => absurd (howner.symm.trans h) (Option.some_ne_none _).symm,
      fun _ => rfl⟩

theorem mem_setOwner (hon : channel.isOn guid = true)
    (h : entry ∈ (channel.setOwner guid).players) : ∃ old ∈ channel.players, old.1 = entry.1 ∧
      (entry.1 = guid → entry.2.isOwner = true ∧ entry.2.isModerator = true) ∧
      (entry.1 ≠ guid → channel.ownerGuid = some entry.1 → entry.2.isOwner = false) ∧
      (entry.1 ≠ guid → channel.ownerGuid ≠ some entry.1 → entry.2.isOwner = old.2.isOwner) := by
  rw [setOwner_eq hon] at h
  obtain ⟨between, hbetween, rfl⟩ := mem_map.mp h
  obtain ⟨old, hold, hkey, hcleared, hkept⟩ := mem_clearOwner hbetween
  refine ⟨old, hold, ?_⟩
  split
  · rename_i hguid
    exact ⟨hkey, fun _ => ⟨isOwner_setOwner .., by simp⟩,
      fun hne => absurd hguid hne, fun hne => absurd hguid hne⟩
  · rename_i hguid
    exact ⟨hkey, fun h => absurd h hguid, fun _ => hcleared, fun _ hne => by rw [hkept hne]⟩

/-- A member who is made owner is one, if only the owner before had the flag. -/
theorem owned_setOwner (hon : channel.isOn guid = true)
    (hflag : ∀ entry ∈ channel.players, entry.2.isOwner = true → channel.ownerGuid = some entry.1)
    (hbanned : ∀ entry ∈ channel.players, entry.1 ∉ channel.bannedStore) :
    Owned (channel.setOwner guid) where
  owner _ := by
    have hold := (isOn_clearOwner channel guid).trans hon
    obtain ⟨between, hbetween, hkey⟩ := isOn_iff.mp hold
    rw [setOwner_eq hon]
    refine ⟨_, mem_map.mpr ⟨between, hbetween, rfl⟩, ?_⟩
    rw [if_pos hkey, hkey]
    rfl
  flag entry hmem := by
    obtain ⟨old, hold, hkey, hnew, hcleared, hkept⟩ := mem_setOwner hon hmem
    rw [ownerGuid_setOwner hon]
    by_cases hguid : entry.1 = guid
    · exact iff_of_true (hnew hguid).1 (by rw [hguid])
    refine iff_of_false ?_ (fun h => hguid (Option.some.inj h).symm)
    by_cases hbefore : channel.ownerGuid = some entry.1
    · rw [hcleared hguid hbefore]
      exact Bool.false_ne_true
    · rw [hkept hguid hbefore]
      intro hflagged
      exact hbefore (hkey ▸ hflag old hold hflagged)
  moderator entry hmem howner := by
    obtain ⟨old, hold, hkey, hnew, _⟩ := mem_setOwner hon hmem
    rw [ownerGuid_setOwner hon] at howner
    exact (hnew (Option.some.inj howner).symm).2
  notBanned entry hmem := by
    obtain ⟨old, hold, hkey, _⟩ := mem_setOwner hon hmem
    rw [bannedStore_setOwner hon, ← hkey]
    exact hbanned old hold

theorem custom_setOwner (hon : channel.isOn guid = true) (h : Custom channel) :
    Custom (channel.setOwner guid) := by
  have hcleared : Custom channel.clearOwner := by
    rw [Channel.clearOwner]
    split <;> exact h
  rw [setOwner_eq hon]
  exact hcleared

/-- A member who leaves and is not the owner. -/
theorem Owned.erase (h : Owned channel) (hother : channel.ownerGuid ≠ some guid) :
    Owned (channel.erase guid) where
  owner hne := by
    obtain ⟨entry, hmem⟩ := exists_mem_of_ne_nil _ hne
    obtain ⟨owner, howner, hguid⟩ := h.owner (ne_nil_of_mem (mem_erase.mp hmem).1)
    exact ⟨owner, mem_erase.mpr ⟨howner, fun h => hother (h ▸ hguid)⟩, hguid⟩
  flag entry hmem := h.flag entry (mem_erase.mp hmem).1
  moderator entry hmem := h.moderator entry (mem_erase.mp hmem).1
  notBanned entry hmem := h.notBanned entry (mem_erase.mp hmem).1

omit [LinearOrder G] in
theorem Owned.of_empty (h : channel.players = []) : Owned channel where
  owner hne := absurd h hne
  flag entry hmem := by rw [h] at hmem; exact (not_mem_nil hmem).elim
  moderator entry hmem := by rw [h] at hmem; exact (not_mem_nil hmem).elim
  notBanned entry hmem := by rw [h] at hmem; exact (not_mem_nil hmem).elim

/-- After somebody left, only the owner before can have the flag. -/
theorem flag_erase (h : Owned channel) : ∀ entry ∈ (channel.erase guid).players,
    entry.2.isOwner = true → channel.ownerGuid = some entry.1 :=
  fun entry hmem => (h.flag entry (mem_erase.mp hmem).1).mp

theorem notBanned_erase (h : Owned channel) : ∀ entry ∈ (channel.erase guid).players,
    entry.1 ∉ channel.bannedStore :=
  fun entry hmem => h.notBanned entry (mem_erase.mp hmem).1

theorem owned_promote (hon : channel.isOn guid = true)
    (hflag : ∀ entry ∈ channel.players, entry.2.isOwner = true → channel.ownerGuid = some entry.1)
    (hbanned : ∀ entry ∈ channel.players, entry.1 ∉ channel.bannedStore) (hc : Custom channel) :
    Owned ((channel.change guid (PlayerInfo.setModerator true)).setOwner guid) ∧
      Custom ((channel.change guid (PlayerInfo.setModerator true)).setOwner guid) := by
  have hon' : (channel.change guid (setModerator true)).isOn guid = true :=
    isOn_change.trans hon
  refine ⟨owned_setOwner hon' ?_ ?_, custom_setOwner hon' hc⟩
  · intro entry hmem
    obtain ⟨old, hold, rfl⟩ := mem_change.mp hmem
    split
    · rw [isOwner_setModerator]
      exact hflag old hold
    · exact hflag old hold
  · intro entry hmem
    obtain ⟨old, hold, rfl⟩ := mem_change.mp hmem
    split <;> exact hbanned old hold

end Operations

section Calls

variable {world : World G} {player : Player G}

/-- A player who joins and does not become owner. -/
theorem owned_insert (h : Owned channel) {info : PlayerInfo} (hoff : channel.isOn guid = false)
    (hbanned : channel.isBanned guid = false) (hinfo : info.isOwner = false)
    (hne : channel.players ≠ []) : Owned (channel.insert guid info) where
  owner _ := by
    obtain ⟨owner, hmem, hguid⟩ := h.owner hne
    exact ⟨owner, mem_insert.mpr (Or.inr hmem), hguid⟩
  flag entry hmem := by
    rcases mem_insert.mp hmem with rfl | hmem
    · refine iff_of_false (by rw [hinfo]; exact Bool.false_ne_true) fun howner => ?_
      obtain ⟨owner, howns, hguid⟩ := h.owner hne
      exact isOn_false_iff.mp hoff owner howns (Option.some.inj (hguid.symm.trans howner))
    · exact h.flag entry hmem
  moderator entry hmem howner := by
    rcases mem_insert.mp hmem with rfl | hmem
    · obtain ⟨owner, howns, hguid⟩ := h.owner hne
      exact (isOn_false_iff.mp hoff owner howns (Option.some.inj (hguid.symm.trans howner))).elim
    · exact h.moderator entry hmem howner
  notBanned entry hmem := by
    rcases mem_insert.mp hmem with rfl | hmem
    · exact of_decide_eq_false hbanned
    · exact h.notBanned entry hmem

theorem joinChannel_owned (h : Owned channel) (hc : Custom channel) (pass : String)
    (hproper : Admitted channel player pass →
      ¬(channel.players = [] ∧ channel.ownerGuid ≠ none ∧ channel.isOwnerInvisible = false)) :
    Owned (channel.joinChannel world player pass) ∧
      Custom (channel.joinChannel world player pass) := by
  rw [Channel.joinChannel]
  split
  · exact ⟨h, hc⟩
  rename_i hoff
  split
  · exact ⟨h, hc⟩
  rename_i hbanned
  split
  · exact ⟨h, hc⟩
  rename_i hpass
  split
  · exact ⟨h, hc⟩
  rw [Bool.not_eq_true] at hoff hbanned
  rw [Bool.not_eq_true, Bool.not_eq_false'] at hpass
  have hnew : (({ invisible := !player.isGMVisible } : PlayerInfo)).isOwner = false := by
    change ((0 : UInt8) &&& MEMBER_FLAG_OWNER != 0) = false
    decide
  dsimp only
  split
  · have hon : ({ channel.insert player.guid { invisible := !player.isGMVisible } with
        isOwnerInvisible := !player.isGMVisible } : Channel G).isOn player.guid = true :=
      isOn_iff.mpr ⟨_, mem_insert.mpr (Or.inl rfl), rfl⟩
    have howned := owned_setOwner hon (fun entry hmem howns => by
        rcases mem_insert.mp hmem with rfl | hmem
        · exact absurd howns (by rw [hnew]; exact Bool.false_ne_true)
        · exact (h.flag entry hmem).mp howns)
      fun entry hmem => by
        rcases mem_insert.mp hmem with rfl | hmem
        · exact of_decide_eq_false hbanned
        · exact h.notBanned entry hmem
    exact ⟨howned.change (fun _ => isOwner_setModerator ..)
      fun _ _ _ => isModerator_setModerator .., custom_setOwner hon hc⟩
  · rename_i htake
    refine ⟨owned_insert h hoff hbanned hnew fun hempty => htake ?_, hc⟩
    have howner := hproper ⟨hoff, hbanned, hpass⟩
    have hfree : channel.ownerGuid = none ∨ channel.isOwnerInvisible = true := by
      by_contra hstale
      rw [not_or, Bool.not_eq_true] at hstale
      exact howner ⟨hempty, hstale⟩
    have hconstant : channel.isConstant = false := by
      rw [Channel.isConstant, hc.1]
      rfl
    have hownership := hc.2.2
    simp only [Channel.insert, Channel.isConstant] at hconstant ⊢
    rw [hconstant, hownership, hempty]
    simpa using hfree

omit [LinearOrder G] in
theorem nextOwner_mem {entry : G × PlayerInfo} (h : channel.nextOwner = some entry) :
    entry ∈ channel.players := by
  rw [Channel.nextOwner] at h
  split at h
  · rename_i visible hvisible
    cases h
    exact mem_of_find?_eq_some hvisible
  · exact mem_of_mem_head? h

omit [LinearOrder G] in
theorem nextOwner_none (h : channel.nextOwner = none) : channel.players = [] := by
  rw [Channel.nextOwner] at h
  split at h
  · cases h
  · exact head?_eq_none_iff.mp h

section
variable (h : Owned channel) (hc : Custom channel) (player : Player G)
include h hc

theorem leaveChannel_owned :
    Owned (channel.leaveChannel player) ∧ Custom (channel.leaveChannel player) := by
  rw [Channel.leaveChannel]
  cases hfind : channel.find player.guid with
  | none => exact ⟨h, hc⟩
  | some info =>
    have hflag := h.flag _ (find_some hfind)
    dsimp only
    split
    · cases hnext : (channel.erase player.guid).nextOwner with
      | none => exact ⟨Owned.of_empty (nextOwner_none hnext), hc⟩
      | some entry =>
        obtain ⟨newOwner, newInfo⟩ := entry
        have hon : (channel.erase player.guid).isOn newOwner = true :=
          isOn_iff.mpr ⟨_, nextOwner_mem hnext, rfl⟩
        obtain ⟨howned, hcustom⟩ := owned_promote hon (flag_erase h) (notBanned_erase h) hc
        dsimp only
        split
        · exact ⟨⟨howned.owner, howned.flag, howned.moderator, howned.notBanned⟩, hcustom⟩
        · exact ⟨howned, hcustom⟩
    · rename_i hkeep
      refine ⟨h.erase fun howner => hkeep ?_, hc⟩
      have hconstant : channel.isConstant = false := by
        rw [Channel.isConstant, hc.1]
        rfl
      have howns : info.isOwner = true := hflag.mpr howner
      change (!channel.isConstant && info.isOwner && channel.ownershipEnabled) = true
      rw [hconstant, howns, hc.2.2]
      rfl

theorem setInvisible_owned (on : Bool) :
    Owned (channel.setInvisible player on) ∧ Custom (channel.setInvisible player on) := by
  rw [Channel.setInvisible]
  split
  · exact ⟨h, hc⟩
  have hchange : Owned (channel.change player.guid (setInvisible on)) :=
    h.change (fun _ => rfl) fun _ _ h => h
  dsimp only
  split
  · exact ⟨⟨hchange.owner, hchange.flag, hchange.moderator, hchange.notBanned⟩, hc⟩
  · exact ⟨hchange, hc⟩

theorem unBan_owned (badname : String) :
    Owned (channel.unBan world player badname) ∧ Custom (channel.unBan world player badname) := by
  rw [Channel.unBan]
  split
  · exact ⟨h, hc⟩
  split
  · exact ⟨h, hc⟩
  split
  · exact ⟨h, hc⟩
  · split
    · exact ⟨h, hc⟩
    · exact ⟨⟨h.owner, h.flag, h.moderator, fun entry hmem hban =>
        h.notBanned entry hmem (Finset.mem_of_mem_erase hban)⟩, hc⟩

theorem setOwnerByName_owned (newname : String) :
    Owned (channel.setOwnerByName world player newname) ∧
      Custom (channel.setOwnerByName world player newname) := by
  rw [Channel.setOwnerByName]
  split
  · exact ⟨h, hc⟩
  split
  · exact ⟨h, hc⟩
  split
  · exact ⟨h, hc⟩
  split
  · exact ⟨h, hc⟩
  · rename_i newp hnewp hstrangers
    rw [Bool.or_eq_true, not_or, Bool.not_eq_true, Bool.not_eq_false'] at hstrangers
    exact owned_promote hstrangers.1 (fun entry hmem => (h.flag entry hmem).mp) h.notBanned hc

end

omit [LinearOrder G] in
/-- Whoever is found under a normalized name has that name. -/
theorem found_name {name : String} (hname : world.normalizePlayerName name = some name)
    {found : Player G} (h : world.findConnectedPlayerByName name = some found) :
    found ∈ world.players ∧ found.name = name := by
  rw [World.findConnectedPlayerByName, hname] at h
  have hfound : decide (found.name = name) = true :=
    find?_some (p := fun player : Player G => decide (player.name = name)) h
  exact ⟨mem_of_find?_eq_some h, of_decide_eq_true hfound⟩

theorem setMode_owned (h : Owned channel) (hc : Custom channel)
    (hplayer : player ∈ world.players) {p2n : String}
    (hname : world.normalizePlayerName p2n = some p2n) (mod set : Bool) :
    Owned (channel.setMode world player p2n mod set) ∧
      Custom (channel.setMode world player p2n mod set) := by
  rw [Channel.setMode]
  split
  · exact ⟨h, hc⟩
  split
  · exact ⟨h, hc⟩
  split
  · exact ⟨h, hc⟩
  rename_i hself
  split
  · exact ⟨h, hc⟩
  rename_i newp hnewp
  obtain ⟨hmem, hnewname⟩ := found_name hname hnewp
  split
  · exact ⟨h, hc⟩
  split
  · exact ⟨h, hc⟩
  rename_i hother
  split
  · rename_i hmod
    -- an owner named here would be the player himself, who was sent away before
    refine ⟨h.change (fun _ => isOwner_setModerator ..) fun howner => ?_, hc⟩
    have hguid : channel.ownerGuid = some player.guid := by
      by_contra hne
      exact hother ⟨howner, hne⟩
    have hsame : newp = player := world.guid_unique newp hmem player hplayer
      (Option.some.inj (howner.symm.trans hguid))
    exact absurd ⟨hguid, hsame ▸ hnewname.symm, hmod⟩ hself
  · exact ⟨h.change (fun _ => isOwner_setMuted ..)
      fun _ info hinfo => (isModerator_setMuted info set).trans hinfo, hc⟩

theorem erase_ban (h : Owned channel) (victim : G) (ban : Bool) (banned : Channel G)
    (hbanned : banned = if ban && !channel.isBanned victim then
      { channel with bannedStore := Insert.insert victim channel.bannedStore, isDirty := true }
      else channel) :
    banned.players = channel.players ∧ banned.ownerGuid = channel.ownerGuid ∧
      (Custom channel → Custom banned) ∧
      ∀ entry ∈ (banned.erase victim).players, entry.1 ∉ banned.bannedStore := by
  subst hbanned
  split
  · refine ⟨rfl, rfl, id, fun entry hmem hban => ?_⟩
    obtain ⟨hmem, hne⟩ := mem_erase.mp hmem
    rcases Finset.mem_insert.mp hban with heq | hban
    · exact hne heq
    · exact h.notBanned entry hmem hban
  · exact ⟨rfl, rfl, id, notBanned_erase h⟩

/-- Whoever goes, those who stay keep an owner. -/
theorem kickOrBan_good (h : Owned channel) (hc : Custom channel)
    (hplayer : player ∈ world.players) {badname : String}
    (hname : world.normalizePlayerName badname = some badname) (ban : Bool)
    (hproper : ¬(channel.ownerGuid = some player.guid ∧ badname = player.name ∧
      ∃ entry ∈ channel.players, entry.1 ≠ player.guid)) :
    Good (channel.kickOrBan world player badname ban) := by
  rw [Channel.kickOrBan]
  split
  · exact ⟨channel, rfl, h, hc⟩
  rename_i info hinfo
  split
  · exact ⟨channel, rfl, h, hc⟩
  split
  · exact ⟨channel, rfl, h, hc⟩
  rename_i bad hbad
  obtain ⟨hbadMem, hbadName⟩ := found_name hname hbad
  dsimp only
  split
  · exact ⟨channel, rfl, h, hc⟩
  split
  · exact ⟨channel, rfl, h, hc⟩
  generalize hafter : (if ban && !channel.isBanned bad.guid then
    ({ channel with bannedStore := Insert.insert bad.guid channel.bannedStore, isDirty := true }
      : Channel G) else channel) = banned
  obtain ⟨hplayers, howner, hcustom, hnotBanned⟩ := erase_ban h bad.guid ban banned hafter.symm
  have hflag : ∀ entry ∈ (banned.erase bad.guid).players, entry.2.isOwner = true →
      banned.ownerGuid = some entry.1 := by
    intro entry hmem
    have hold := (mem_erase.mp hmem).1
    rw [hplayers] at hold
    rw [howner]
    exact (h.flag entry hold).mp
  split
  · rename_i hchange
    rw [Bool.and_eq_true, Bool.and_eq_true, decide_eq_true_iff, Bool.not_eq_true',
      isEmpty_eq_false_iff] at hchange
    obtain ⟨⟨hvictim, _⟩, hleft⟩ := hchange
    have hother : player.guid ≠ bad.guid := by
      intro hsame
      have heq := world.guid_unique player hplayer bad hbadMem hsame
      obtain ⟨entry, hmem⟩ := exists_mem_of_ne_nil _ hleft
      obtain ⟨hmem, hne⟩ := mem_erase.mp hmem
      rw [hplayers] at hmem
      exact hproper ⟨by rw [hsame]; exact hvictim, by rw [heq]; exact hbadName.symm,
        entry, hmem, hsame ▸ hne⟩
    have hon : (banned.erase bad.guid).isOn player.guid = true := by
      refine isOn_iff.mpr ⟨(player.guid, info), mem_erase.mpr ⟨?_, hother⟩, rfl⟩
      rw [hplayers]
      exact find_some hinfo
    rw [if_pos hon]
    exact ⟨_, rfl, owned_promote hon hflag hnotBanned (hcustom hc)⟩
  · rename_i hkeep
    refine ⟨_, rfl, ?_, hcustom hc⟩
    by_cases hempty : (banned.erase bad.guid).players = []
    · exact Owned.of_empty hempty
    have hvictim : channel.ownerGuid ≠ some bad.guid := by
      intro hvictim
      apply hkeep
      rw [Bool.and_eq_true, Bool.and_eq_true, decide_eq_true_iff, Bool.not_eq_true',
        isEmpty_eq_false_iff]
      exact ⟨⟨hvictim, (hcustom hc).2.2⟩, hempty⟩
    have hbefore : Owned (channel.erase bad.guid) := h.erase hvictim
    have hsame : (banned.erase bad.guid).players = (channel.erase bad.guid).players := by
      rw [Channel.erase, Channel.erase, hplayers]
    have hguid : (banned.erase bad.guid).ownerGuid = (channel.erase bad.guid).ownerGuid :=
      howner
    exact ⟨by rw [hsame, hguid]; exact hbefore.owner, by rw [hsame, hguid]; exact hbefore.flag,
      by rw [hsame, hguid]; exact hbefore.moderator, hnotBanned⟩

end Calls

/-- One call: what it leaves is good unless the owner removes himself or the channel was left
by an owner. -/
theorem run_good (call : ChannelCall G) (h : Owned channel) (hc : Custom channel)
    (hproper : Proper call channel) : Good (call.run channel) := by
  obtain ⟨world, player, request, hplayer, hnames⟩ := call
  cases request with
  | joinChannel pass => exact ⟨_, rfl, joinChannel_owned h hc pass hproper⟩
  | leaveChannel => exact ⟨_, rfl, leaveChannel_owned h hc player⟩
  | kickOrBan badname ban => exact kickOrBan_good h hc hplayer (hnames badname rfl) ban hproper
  | unBan badname => exact ⟨_, rfl, unBan_owned h hc player badname⟩
  | setMode p2n mod set => exact ⟨_, rfl, setMode_owned h hc hplayer (hnames p2n rfl) mod set⟩
  | setOwner newname => exact ⟨_, rfl, setOwnerByName_owned h hc player newname⟩
  | setInvisible on => exact ⟨_, rfl, setInvisible_owned h hc player on⟩

/-- The calls that meet the condition, in the state they are made in. -/
def ProperCalls (call : ChannelCall G) (s : Except ChannelFault (Channel G)) : Prop :=
  ∀ channel, s = .ok channel → Proper call channel

/-- As long as nobody joins a channel with a stale owner, an owner is a member, and the only one with
the flag. -/
theorem owner_kept {s : Except ChannelFault (Channel G)}
    (h : ((channelSystem G).guarded ProperCalls).Reachable s) : Good s := by
  refine System.Reachable.invariant Good ?_ ?_ h
  · rintro s ⟨channelPassword, bannedStore, rfl⟩
    exact ⟨_, rfl, Owned.of_empty rfl, rfl, rfl, rfl⟩
  · rintro call s s' ⟨channel, rfl, howned, hcustom⟩ ⟨hproper, channel', hsame, rfl⟩
    cases hsame
    exact run_good call howned hcustom (hproper channel rfl)

def alice : Player Nat := { guid := 1, name := "Alice" }
def bob : Player Nat := { guid := 2, name := "Bob" }

def town : World Nat where
  normalizePlayerName name := some name
  players := [alice, bob]
  guid_unique := by decide

def aliceCalls (request : ChannelRequest) : ChannelCall Nat :=
  ⟨town, alice, request, mem_cons_self, fun _ _ => rfl⟩

def bobCalls (request : ChannelRequest) : ChannelCall Nat :=
  ⟨town, bob, request, mem_cons_of_mem _ mem_cons_self, fun _ _ => rfl⟩

def freshChannel : Channel Nat := { bannedStore := ∅ }

def aliceOn : Channel Nat := freshChannel.joinChannel town alice ""

def bothOn : Channel Nat := aliceOn.joinChannel town bob ""

theorem reachable_aliceOn : (channelSystem Nat).Reachable (.ok aliceOn) :=
  .step (aliceCalls (.joinChannel "")) (.init ⟨"", ∅, rfl⟩) ⟨freshChannel, rfl, rfl⟩

theorem owner_kept_bothOn : Good (.ok bothOn) := by
  refine owner_kept (.step (bobCalls (.joinChannel "")) (.step (aliceCalls (.joinChannel ""))
    (.init ⟨"", ∅, rfl⟩) ⟨?_, freshChannel, rfl, rfl⟩) ⟨?_, aliceOn, rfl, rfl⟩)
  · intro channel hchannel
    cases hchannel
    exact fun _ hstale => hstale.2.1 rfl
  · intro channel hchannel
    cases hchannel
    exact fun _ hstale => absurd hstale.1 (by decide)

/-- Alice, who owns the channel, kicks herself while Bob is on; or leaves it empty and comes
back. -/
theorem owner_not_kept : (channelSystem Nat).Reachable (.error .infoErased) ∧
    ∃ channel, (channelSystem Nat).Reachable (.ok channel) ∧ channel.players ≠ [] ∧
      ¬∃ entry ∈ channel.players, channel.ownerGuid = some entry.1 ∧ entry.2.isOwner = true := by
  constructor
  · refine .step (aliceCalls (.kickOrBan "Alice" false)) (.step (bobCalls (.joinChannel ""))
      reachable_aliceOn ⟨aliceOn, rfl, rfl⟩) ⟨bothOn, rfl, ?_⟩
    rfl
  · refine ⟨(aliceOn.leaveChannel alice).joinChannel town alice "", .step
      (aliceCalls (.joinChannel "")) (.step (aliceCalls .leaveChannel) reachable_aliceOn
        ⟨aliceOn, rfl, rfl⟩) ⟨aliceOn.leaveChannel alice, rfl, rfl⟩, by decide, by decide⟩

end LegionServer.Guarantees.ChannelOwnership
