import Tc8Harness.Cli.ExpectParser
import Tc8Harness.Inventory.SpecInventory
import Mathlib.Logic.Function.Basic

/-!
# Expectation keys

`cli/tc8_expect_keys.def` and the token side of `cli/expect_parser.cpp`: the groups with their
namespaces, the keys of each, `matchExpect` over one group's table and the loop of `test_command.cpp`
that offers every token to the groups in turn. The configuration has one member for each key, so the
record of a group is a dependent function over its table.

`applyExpectToken_some` says all that an accepted token does: it assigns the one member its key names,
with a value that does not depend on what the member held. `applyTokens_keeps` is the run lemma behind
the last token winning: tokens with other keys leave a member alone.
-/

namespace Tc8Harness.Cli

open Sce (tokenKey)

/-! ## The table -/

/-- The groups, in the order in which a token is offered to them. -/
inductive Group where
  | arp
  | dut
  | tester
  | someipDut
  | arpStimulus
  | ixit
  | tcp
  | network
  | icmpv4
  | ipv4
  | dhcpv4
  | someip
  deriving DecidableEq, Repr

def Group.all : List Group :=
  [.arp, .dut, .tester, .someipDut, .arpStimulus, .ixit, .tcp, .network, .icmpv4, .ipv4, .dhcpv4,
    .someip]

/-- The namespace of a group; the SOME/IP group has none. -/
def ekPrefix : Group → List Char
  | .someip => []
  | .arp => "arp.".toList
  | .dut => "dut.".toList
  | .tester => "tester.".toList
  | .someipDut => "someip_dut.".toList
  | .arpStimulus => "arp_stimulus.".toList
  | .ixit => "ixit.".toList
  | .tcp => "tcp.".toList
  | .network => "network.".toList
  | .icmpv4 => "icmpv4.".toList
  | .ipv4 => "ipv4.".toList
  | .dhcpv4 => "dhcpv4.".toList

/-- A row of the table fills one member of some kind, or a payload and its length. -/
inductive RowKind where
  | key (kind : EKind)
  | payload
  deriving DecidableEq, Repr

def ekRows : Group → List (String × RowKind)
  | .someip =>
    [("service_id", .key .u16), ("instance_id", .key .u16), ("major_version", .key .u8),
      ("major_version_alt", .key .u8), ("ttl", .key .u24), ("minor_version", .key .u32),
      ("eventgroup_id", .key .u16), ("dut_iface_ip", .key .ipv4), ("udp_port", .key .u16),
      ("tcp_port", .key .u16), ("sd_multicast_ip", .key .ipv4), ("mcast_ipv4", .key .ipv4),
      ("mcast_port", .key .u16), ("tester_ipv4", .key .ipv4), ("tester_udp_port", .key .u16),
      ("tester_ipv4_2", .key .ipv4), ("sd_initial_delay_min_ms", .key .u32),
      ("sd_initial_delay_max_ms", .key .u32), ("sd_repetition_base_delay_ms", .key .u32),
      ("sd_repetitions_max", .key .u32), ("sd_cyclic_offer_delay_ms", .key .u32),
      ("sd_request_response_delay_ms", .key .u32), ("sd_timing_tolerance_ms", .key .u32),
      ("sd_raw_startup_ms", .key .u32), ("sd_service_down_ms", .key .u32),
      ("sd_initial_wait_bias_ms", .key .u32), ("sd_initial_wait_jitter_ms", .key .u32),
      ("sd_initial_wait_floor_margin_ms", .key .u32), ("sd_initial_wait_overhead_ms", .key .u32),
      ("can_ets_cycle_0_ms", .key .u32), ("can_ets_cycle_1_ms", .key .u32),
      ("can_delay_time_ms", .key .u32), ("can_start_offset_ms", .key .u32),
      ("can_timing_tolerance_ms", .key .u32), ("payload", .payload)]
  | .arp =>
    [("dut_iface_ip", .key .ipv4), ("tester_ip", .key .ipv4), ("dut_iface_mac", .key .mac),
      ("tester_mac", .key .mac), ("tester_mac2", .key .mac), ("tester_mac3", .key .mac),
      ("tester_linklocal_ip", .key .ipv4)]
  | .dut =>
    [("ip", .key .ipv4), ("mac", .key .mac), ("secondary_ip", .key .ipv4),
      ("second_subnet_ip", .key .ipv4)]
  | .tester =>
    [("ip", .key .ipv4), ("secondary_ip", .key .ipv4), ("second_subnet_ip", .key .ipv4)]
  | .someipDut =>
    [("udp_port", .key .u16), ("tcp_port", .key .u16), ("service_id", .key .u16),
      ("instance_id", .key .u16)]
  | .arpStimulus => [("ut_cache_conditioning_s", .key .u16)]
  | .ixit => [("param_listen_time_ms", .key .u32)]
  | .tcp =>
    [("initial_cwnd_segments", .key .optU32Min1), ("congestion_control", .key .optText),
      ("tx_buffer_delay_ms", .key .optU32), ("time_wait_rst", .key .optEnum)]
  | .network => [("vlan_id", .key .optVlanId)]
  | .icmpv4 =>
    [("tester_ip", .key .ipv4), ("dut_iface_ip", .key .ipv4), ("echo_id", .key .u16),
      ("echo_seq", .key .u16), ("payload", .payload)]
  | .ipv4 =>
    [("tester_ip", .key .ipv4), ("dut_iface_ip", .key .ipv4), ("dut_alias_ip", .key .ipv4),
      ("tester_alias_ip", .key .ipv4)]
  | .dhcpv4 => [("dut_iface_mac", .key .mac)]

/-- The one enumeration of an `OPT_ENUM` key. -/
inductive TimeWaitRstPolicy where
  | kEndsConnection
  | kIgnored
  deriving DecidableEq, Repr

def parseDeclarationEnum (text : List Char) : Option TimeWaitRstPolicy :=
  if text = "ends_connection".toList then some .kEndsConnection
  else if text = "ignored".toList then some .kIgnored
  else none

/-- A row of a group, by its place in the table. -/
abbrev Row (g : Group) := Fin (ekRows g).length

def rowName (g : Group) (i : Row g) : List Char := ((ekRows g).get i).1.toList

def rowKind (g : Group) (i : Row g) : RowKind := ((ekRows g).get i).2

/-- The key as a token spells it. -/
def rowKey (g : Group) (i : Row g) : List Char := ekPrefix g ++ rowName g i

def RowKind.Member : RowKind → Type
  | .key kind => kind.Member TimeWaitRstPolicy
  | .payload => ExpectedPayload

/-- One group of the configuration, with a member for each row. -/
abbrev Expectations (g : Group) := (i : Row g) → (rowKind g i).Member

abbrev Config := (g : Group) → Expectations g

/-! ## Tokens -/

section Tokens

variable (inetPton : List Char → Option UInt32)

/-- The setter of a row: the value parsed per kind into its member. -/
def applyRow : (kind : RowKind) → List Char → kind.Member → Bool × kind.Member
  | .key kind, v, member => applyField inetPton parseDeclarationEnum kind v member
  | .payload, v, member => applyPayload v member

/-- One row of a group's table. -/
structure EKey (T : Type) where
  name : List Char
  apply : T → List Char → Bool × T

def ekTable (g : Group) : List (EKey (Expectations g)) :=
  (List.finRange (ekRows g).length).map fun i =>
    { name := rowName g i
      apply := fun e v =>
        let (parsed, member) := applyRow inetPton (rowKind g i) v (e i)
        (parsed, Function.update e i member) }

def matchExpect {T : Type} (token pre : List Char) (e : T) (table : List (EKey T)) : Bool × T :=
  if token.take pre.length ≠ pre then (false, e)
  else
    let body := token.drop pre.length
    if '=' ∉ body then (false, e)
    else
      let key := body.takeWhile (· ≠ '=')
      let val := (body.dropWhile (· ≠ '=')).tail
      match table.find? fun row => key = row.name with
      | some row => row.apply e val
      | none => (false, e)

/-- One token through the groups: the first that recognises it wins; `none` when none does. -/
def applyExpectToken (token : List Char) : List Group → Config → Option Config
  | [], _ => none
  | g :: groups, config =>
    match matchExpect token (ekPrefix g) (config g) (ekTable inetPton g) with
    | (true, e) => some (Function.update config g e)
    | (false, e) => applyExpectToken token groups (Function.update config g e)

/-- The loop over the effective tokens; a token that no group recognises ends the command. -/
def applyTokens : List (List Char) → Config → Option Config
  | [], config => some config
  | token :: tokens, config =>
    match applyExpectToken inetPton token Group.all config with
    | none => none
    | some config => applyTokens tokens config

end Tokens

/-! ## What one token does -/

/-- The value of a `key=value` token. -/
def tokenValue (token : List Char) : List Char := (token.dropWhile (· ≠ '=')).tail

theorem ekPrefix_no_eq (g : Group) : '=' ∉ ekPrefix g := by
  cases g <;> decide

/-- Behind a namespace, the key and the value are those of the rest. -/
theorem token_split {token : List Char} {g : Group} (h : token.take (ekPrefix g).length = ekPrefix g) :
    tokenKey token = ekPrefix g ++ (token.drop (ekPrefix g).length).takeWhile (· ≠ '=') ∧
      tokenValue token = ((token.drop (ekPrefix g).length).dropWhile (· ≠ '=')).tail := by
  have htoken : token = ekPrefix g ++ token.drop (ekPrefix g).length := by
    conv_lhs => rw [← List.take_append_drop (ekPrefix g).length token, h]
  have hpre : ∀ c ∈ ekPrefix g, decide (c ≠ '=') = true := by
    intro c hc
    refine decide_eq_true ?_
    rintro rfl
    exact ekPrefix_no_eq g hc
  refine ⟨?_, ?_⟩
  · conv_lhs => rw [htoken, tokenKey, List.takeWhile_append_of_pos hpre]
  · conv_lhs => rw [htoken, tokenValue, List.dropWhile_append_of_pos hpre]

section Spec

variable {inetPton : List Char → Option UInt32}

theorem applyNumeric_eq {M : Type} (ok : UInt64 → Bool) (cast : UInt64 → M) (v : List Char) :
    ∃ r : Option M, ∀ member, applyNumeric ok cast v member = (r.isSome, r.getD member) := by
  unfold applyNumeric
  dsimp only
  split
  · exact ⟨none, fun _ => rfl⟩
  · exact ⟨some _, fun _ => rfl⟩

variable (inetPton) in
/-- A setter reads its value without its member: it rejects the value and leaves the member, or
replaces the member by what it read. -/
theorem applyRow_eq (kind : RowKind) (v : List Char) :
    ∃ r : Option kind.Member, ∀ member, applyRow inetPton kind v member = (r.isSome, r.getD member) := by
  cases kind with
  | payload =>
    simp only [applyRow, applyPayload]
    split
    · exact ⟨none, fun _ => rfl⟩
    · split
      · exact ⟨none, fun _ => rfl⟩
      · exact ⟨some _, fun _ => rfl⟩
  | key kind =>
    cases kind with
    | u8 | u16 | u24 | u32 | optU32 | optU32Min1 | optVlanId =>
      simp only [applyRow, applyField]
      exact applyNumeric_eq _ _ v
    | mac =>
      simp only [applyRow, applyField, parseMac]
      split
      · exact ⟨none, fun _ => rfl⟩
      · split
        · exact ⟨none, fun _ => rfl⟩
        · exact ⟨some _, fun _ => rfl⟩
    | ipv4 =>
      simp only [applyRow, applyField]
      split
      · exact ⟨none, fun _ => rfl⟩
      · exact ⟨some _, fun _ => rfl⟩
    | optText =>
      simp only [applyRow, applyField]
      split
      · exact ⟨none, fun _ => rfl⟩
      · exact ⟨some _, fun _ => rfl⟩
    | optEnum =>
      simp only [applyRow, applyField]
      split
      · exact ⟨none, fun _ => rfl⟩
      · exact ⟨some _, fun _ => rfl⟩

variable (inetPton) in
/-- The token assigns the row's member this value, whatever the member held. -/
def Assigns (token : List Char) (g : Group) (i : Row g) (value : (rowKind g i).Member) : Prop :=
  tokenKey token = rowKey g i ∧
    ∀ member, applyRow inetPton (rowKind g i) (tokenValue token) member = (true, value)

/-- What `matchExpect` does over one group's table. -/
theorem matchExpect_cases (token : List Char) (g : Group) (e : Expectations g) :
    matchExpect token (ekPrefix g) e (ekTable inetPton g) = (false, e) ∨
      ∃ i value, Assigns inetPton token g i value ∧
        matchExpect token (ekPrefix g) e (ekTable inetPton g) = (true, Function.update e i value) := by
  unfold matchExpect
  split
  · exact .inl rfl
  next hpre =>
    dsimp only
    split
    · exact .inl rfl
    · split
      · next row hfind =>
        obtain ⟨hkey, hval⟩ := token_split (not_not.1 hpre)
        obtain ⟨i, -, rfl⟩ := List.mem_map.1 (List.mem_of_find?_eq_some hfind)
        have hname := List.find?_some hfind
        rw [decide_eq_true_eq] at hname
        obtain ⟨r, hr⟩ := applyRow_eq inetPton (rowKind g i) (tokenValue token)
        dsimp only at hname ⊢
        rw [← hval, hr (e i)]
        cases r with
        | none =>
          refine .inl ?_
          rw [Option.getD_none, Function.update_eq_self]
          rfl
        | some value => exact .inr ⟨i, value, ⟨by rw [hkey, hname, rowKey], hr⟩, rfl⟩
      · exact .inl rfl

/-- **What an accepted token does**: it assigns the one member its key names. -/
theorem applyExpectToken_some {token : List Char} {groups : List Group} {config config' : Config}
    (h : applyExpectToken inetPton token groups config = some config') :
    ∃ g i value, Assigns inetPton token g i value ∧
      config' = Function.update config g (Function.update (config g) i value) := by
  induction groups generalizing config with
  | nil => cases h
  | cons g groups ih =>
    unfold applyExpectToken at h
    rcases matchExpect_cases token g (config g) with hrun | ⟨i, value, hassigns, hrun⟩
    · rw [hrun] at h
      dsimp only at h
      rw [Function.update_eq_self] at h
      exact ih h
    · rw [hrun] at h
      exact ⟨g, i, value, hassigns, (Option.some.inj h).symm⟩

/-! ## The last token wins -/

/-- **Run lemma**: tokens with other keys leave a member as it is. -/
theorem applyTokens_keeps {tokens : List (List Char)} {config config' : Config}
    (h : applyTokens inetPton tokens config = some config') {g : Group} {i : Row g}
    (hother : ∀ token ∈ tokens, tokenKey token ≠ rowKey g i) : config' g i = config g i := by
  induction tokens generalizing config with
  | nil =>
    cases h
    rfl
  | cons token tokens ih =>
    unfold applyTokens at h
    split at h
    · cases h
    next mid hmid =>
      obtain ⟨g', i', value, hassigns, rfl⟩ := applyExpectToken_some hmid
      rw [ih h fun t ht => hother t (List.mem_cons_of_mem _ ht)]
      by_cases hg : g = g'
      · subst hg
        have hi : i ≠ i' := by
          rintro rfl
          exact hother token List.mem_cons_self hassigns.1
        rw [Function.update_self, Function.update_of_ne hi]
      · rw [Function.update_of_ne hg]

theorem applyTokens_append {before after : List (List Char)} {config : Config} :
    applyTokens inetPton (before ++ after) config =
      (applyTokens inetPton before config).bind (applyTokens inetPton after) := by
  induction before generalizing config with
  | nil => rfl
  | cons token before ih =>
    rw [List.cons_append, applyTokens, applyTokens]
    split
    · rfl
    · exact ih

/-- **The last token of a key wins**: when the command accepts its tokens, a token whose key none of
the later ones has decides the value of the member that key names. -/
theorem applyTokens_last {before after : List (List Char)} {token : List Char}
    {config config' : Config}
    (h : applyTokens inetPton (before ++ token :: after) config = some config')
    (hlast : ∀ t ∈ after, tokenKey t ≠ tokenKey token) :
    ∃ g i value, Assigns inetPton token g i value ∧ config' g i = value := by
  rw [applyTokens_append] at h
  obtain ⟨mid, -, h⟩ := Option.bind_eq_some_iff.1 h
  unfold applyTokens at h
  split at h
  · cases h
  next next hnext =>
    obtain ⟨g, i, value, hassigns, rfl⟩ := applyExpectToken_some hnext
    refine ⟨g, i, value, hassigns, ?_⟩
    rw [applyTokens_keeps h fun t ht => hassigns.1 ▸ hlast t ht, Function.update_self,
      Function.update_self]

end Spec

end Tc8Harness.Cli
