import Mathlib
import Tc8Harness.Orchestrator.Unit

/-!
# Case tokens and the tables they key

`case_token.rs` of `dut/env/orchestrator/src`, and what the orchestrator decides per case: `plan` of
`conditioning.rs`, the secondary-interface requirement of `run_case_impl`, `lookup` of `dut_variant.rs` and
`narrow_to_named_cases` of `main.rs`. A token is `ID` or `suite:ID`. Of the four, `lookup` splits the token;
the others compare it whole, upper-cased, with what they have for a bare id.

`str::to_uppercase` works character by character with the Unicode table; `Uppercase` is any table with what
the comparisons rest on.
-/

namespace Tc8Harness.Orchestrator

/-! ## Letter case -/

/-- `char::to_uppercase`. -/
structure Uppercase where
  char : Char → List Char
  ascii : ∀ c, c.toNat < 128 → char c = [c.toUpper]
  colon : ∀ c, ':' ∈ char c → c = ':'

/-- `str::to_uppercase`. -/
def Uppercase.text (u : Uppercase) (s : String) : String := String.ofList (s.toList.flatMap u.char)

def eqIgnoreAsciiCase (a b : String) : Bool := a.toList.map Char.toLower == b.toList.map Char.toLower

def startsWith (s head : String) : Bool := head.toList.isPrefixOf s.toList

/-! ## The grammar -/

def defaultSuite : String := "tc8"

/-- The suite qualifier, `none` when the token is bare, and the id. -/
def split (token : String) : Option String × String :=
  match token.toList.dropWhile (· ≠ ':') with
  | [] => (none, token)
  | _ :: id => (some (String.ofList (token.toList.takeWhile (· ≠ ':'))), String.ofList id)

def isDefaultSuite (suite : String) : Bool := eqIgnoreAsciiCase suite defaultSuite

/-- The token of a case with its suite. -/
def qualified (suite id : String) : String := suite ++ ":" ++ id

/-! ## Conditioning -/

inductive Side where
  | dut
  | tester
  deriving DecidableEq, Repr

inductive SysctlTable where
  | conf
  | neigh
  deriving DecidableEq, Repr

inductive CondStep where
  | sysctlIface (side : Side) (table : SysctlTable) (leaf on off : String)
  | sysctlConfAll (side : Side) (leaf on off : String)
  | sysctlGlobal (side : Side) (key on off : String)
  | neighPin (side : Side) (ip mac : String) (undo : Bool)
  | neighFlush (side : Side)
  deriving DecidableEq, Repr

def delayFirstProbeSecs : String := "30"
def dhcpv4Server1Ip4 : String := "172.16.0.10"
def arpTesterMac : String := "02:00:00:00:00:A1"

/-- The heads of the ids of the IPv4 AUTOCONF cluster. -/
def autoconfHeads : List String :=
  ["IPV4_AUTOCONF_ADDRESS_SELECTION_", "IPV4_AUTOCONF_CONFLICT_", "IPV4_AUTOCONF_ANNOUNCING_",
    "IPV4_AUTOCONF_LINKLOCAL_PACKETS_", "IPV4_AUTOCONF_NETWORK_PARTITIONS_"]

/-- The family of steps an upper-cased id selects. -/
def family (id testerIp4 testerMac : String) : List CondStep :=
  if id ∈ ["ARP_38"] then
    [.sysctlIface .dut .conf "arp_accept" "0" "1", .sysctlConfAll .dut "arp_accept" "0" "1"]
  else if id ∈ ["ARP_33", "ARP_34"] then [.sysctlIface .dut .neigh "locktime" "0" "100"]
  else if id ∈ ["ARP_39", "ARP_40"] then [.sysctlIface .tester .conf "arp_ignore" "8" "0"]
  else if autoconfHeads.any (startsWith id) then [.neighPin .dut testerIp4 testerMac true]
  else if id ∈ ["DHCPV4_CLIENT_CONSTRUCTING_MESSAGES_05", "DHCPV4_CLIENT_CONSTRUCTING_MESSAGES_06"] then
    [.neighPin .dut dhcpv4Server1Ip4 arpTesterMac false]
  else if id ∈ ["ARP_48", "ARP_49"] then
    [.sysctlIface .dut .neigh "base_reachable_time_ms" "500" "30000",
      .sysctlIface .dut .neigh "delay_first_probe_time" "1" delayFirstProbeSecs,
      .sysctlIface .dut .neigh "gc_stale_time" "1" "60"]
  else if id ∈ ["ICMPV4_TYPE_04"] then [.sysctlGlobal .dut "ipfrag_time" "3" "30"]
  else if id ∈ ["IPV4_REASSEMBLY_10", "IPV4_REASSEMBLY_11", "IPV4_REASSEMBLY_12"] then
    [.sysctlGlobal .dut "ipfrag_time" "2" "30"]
  else if id ∈ ["TCP_RETRANSMISSION_TO_05"] then [.sysctlGlobal .dut "tcp_syn_linear_timeouts" "0" "4"]
  else if id ∈ ["TCP_RETRANSMISSION_TO_04", "TCP_RETRANSMISSION_TO_03"] then
    [.sysctlGlobal .dut "tcp_early_retrans" "0" "3", .sysctlGlobal .dut "tcp_recovery" "0" "1"]
  else if id ∈ ["TCP_RETRANSMISSION_TO_08", "TCP_RETRANSMISSION_TO_09"] then
    [.sysctlGlobal .dut "tcp_rto_max_ms" "60000" "120000"]
  else []

def plan (u : Uppercase) (caseId testerIp4 testerMac : String) : List CondStep :=
  .neighFlush .dut :: family (u.text caseId) testerIp4 testerMac

/-! ## The other tables -/

structure DutVariant where
  cfgBasename : Option String
  env : List String
  deriving DecidableEq, Repr

/-- Why a token of another suite gets no flavor. -/
def refusal (token suite id : String) : String :=
  token ++ ": the in-tree case " ++ id ++ " needs a DUT vsomeip flavor and suite '" ++ suite ++
    "' declares none of its own, so the DUT this case needs cannot be known; declare which DUT it " ++
    "needs under the overrides key \"" ++ token ++ "\" rather than inherit the in-tree one by id " ++
    "coincidence: the in-tree case's vsomeip_cfg / vsomeip_env to want that flavor, or both empty " ++
    "(\"vsomeip_cfg\": \"\", \"vsomeip_env\": []) for the base DUT. The entry applies only to a case " ++
    "the inventory holds, so pass suite '" ++ suite ++ "''s own catalog with --inventory-extra as well"

/-- `lookup`, in the table of `--list-vsomeip-variants`. -/
def lookup (table : String → Option DutVariant) (token : String) : Except String (Option DutVariant) :=
  let upper := toAsciiUppercase token
  match split upper with
  | (none, id) => .ok (table id)
  | (some suite, id) =>
    if isDefaultSuite suite then .ok (table id)
    else
      match table upper with
      | some own => .ok (some own)
      | none => if (table id).isSome then .error (refusal token suite id) else .ok none

/-- `cfg.secondary_iface_cases.contains(&case_id.to_uppercase())`. -/
def needsSecondary (u : Uppercase) (secondaryIfaceCases : List String) (caseId : String) : Bool :=
  secondaryIfaceCases.contains (u.text caseId)

def narrowToNamedCases (u : Uppercase) (rows : List (UnitId × String)) (named : List String) :
    List (UnitId × String) :=
  if named.isEmpty then rows
  else rows.filter fun row => (named.map u.text).contains (u.text row.1.case)

/-- What the harness lists: the secondary-interface set (upper-cased), the flavors, and the rows of the
negative and of the known-fail lane. -/
structure Tables where
  secondaryIfaceCases : List String
  flavors : String → Option DutVariant
  negativeRows : List (UnitId × String)
  knownFails : List (UnitId × String)

def Tables.lanes (tables : Tables) : List (UnitId × String) := tables.negativeRows ++ tables.knownFails

/-! ## What is asked of a token -/

/-- Every decision about one token is the decision about the other. -/
structure SameDecisions (u : Uppercase) (tables : Tables) (token token' : String) : Prop where
  conditioning : ∀ testerIp4 testerMac, plan u token testerIp4 testerMac = plan u token' testerIp4 testerMac
  secondary : needsSecondary u tables.secondaryIfaceCases token =
    needsSecondary u tables.secondaryIfaceCases token'
  flavor : lookup tables.flavors token = lookup tables.flavors token'
  negative : ∀ before after, narrowToNamedCases u tables.negativeRows (before ++ token :: after) =
    narrowToNamedCases u tables.negativeRows (before ++ token' :: after)
  knownFail : ∀ before after, narrowToNamedCases u tables.knownFails (before ++ token :: after) =
    narrowToNamedCases u tables.knownFails (before ++ token' :: after)

/-- A key of the in-tree suite, whose ids are listed bare. -/
def inTree (key : String) : Bool := !key.toList.contains ':'

/-- Nothing that a table has for an in-tree case is applied to the token for its id. -/
structure NoCoincidence (u : Uppercase) (tables : Tables) (suite id : String) : Prop where
  conditioning : ∀ id' testerIp4 testerMac, plan u (qualified suite id) testerIp4 testerMac =
    plan u (qualified suite id') testerIp4 testerMac
  secondary : needsSecondary u tables.secondaryIfaceCases (qualified suite id) =
    needsSecondary u (tables.secondaryIfaceCases.filter fun key => !inTree key) (qualified suite id)
  flavor : ∀ v, lookup tables.flavors (qualified suite id) = .ok (some v) →
    ∃ key, inTree key = false ∧ tables.flavors key = some v
  lanes : ∀ row ∈ narrowToNamedCases u tables.lanes [qualified suite id], inTree row.1.case = false

/-- The ids that `plan` has steps for. -/
def conditionedIds : List String :=
  ["ARP_38", "ARP_33", "ARP_34", "ARP_39", "ARP_40", "DHCPV4_CLIENT_CONSTRUCTING_MESSAGES_05",
    "DHCPV4_CLIENT_CONSTRUCTING_MESSAGES_06", "ARP_48", "ARP_49", "ICMPV4_TYPE_04", "IPV4_REASSEMBLY_10",
    "IPV4_REASSEMBLY_11", "IPV4_REASSEMBLY_12", "TCP_RETRANSMISSION_TO_05", "TCP_RETRANSMISSION_TO_04",
    "TCP_RETRANSMISSION_TO_03", "TCP_RETRANSMISSION_TO_08", "TCP_RETRANSMISSION_TO_09"]

def conditioned (id : String) : Bool := decide (id ∈ conditionedIds) || autoconfHeads.any (startsWith id)

/-! ## Texts -/

section Texts

variable {u : Uppercase} {s id suite : String}

theorem toList_text (u : Uppercase) (s : String) : (u.text s).toList = s.toList.flatMap u.char :=
  String.toList_ofList

theorem toList_qualified (suite id : String) : (qualified suite id).toList = suite.toList ++ ':' :: id.toList := by
  simp [qualified]

theorem text_qualified (u : Uppercase) (suite id : String) :
    u.text (qualified suite id) = qualified (u.text suite) (u.text id) := by
  apply String.toList_inj.mp
  have hcolon : u.char ':' = [':'] := u.ascii ':' (by decide)
  rw [toList_text, toList_qualified, toList_qualified, List.flatMap_append, List.flatMap_cons, hcolon,
    toList_text, toList_text]
  rfl

theorem colon_mem_text : ':' ∈ (u.text s).toList ↔ ':' ∈ s.toList := by
  rw [toList_text, List.mem_flatMap]
  constructor
  · rintro ⟨c, hc, hcolon⟩
    rwa [← u.colon c hcolon]
  · intro h
    exact ⟨':', h, by rw [u.ascii ':' (by decide)]; decide⟩

theorem inTree_eq_false : inTree s = false ↔ ':' ∈ s.toList := by simp [inTree]

theorem inTree_qualified : inTree (qualified suite id) = false := by
  rw [inTree_eq_false, toList_qualified]
  simp

theorem ascii_of_toLower {c : Char} (h : c.toLower.toNat < 128) : c.toNat < 128 := by
  unfold Char.toLower at h
  split at h
  · next hupper =>
    have hle : c.val.toNat ≤ 90 := UInt32.le_iff_toNat_le.mp hupper.2
    exact lt_of_le_of_lt hle (by decide)
  · exact h

theorem char_of_toLower {c d : Char} (h : c.toLower = d) (hd : d.toNat < 128) :
    u.char c = [d.toUpper] := by
  rw [u.ascii c (ascii_of_toLower (h ▸ hd)), ← h]
  simp

/-- The default suite has one upper-cased spelling. -/
theorem text_default (h : isDefaultSuite suite = true) : u.text suite = "TC8" := by
  have hlower : suite.toList.map Char.toLower = ['t', 'c', '8'] := by
    simpa [isDefaultSuite, eqIgnoreAsciiCase, defaultSuite] using h
  apply String.toList_inj.mp
  rw [toList_text]
  obtain ⟨a, tail, hsuite, ha, htail⟩ := List.map_eq_cons_iff.mp hlower
  obtain ⟨b, tail, rfl, hb, htail⟩ := List.map_eq_cons_iff.mp htail
  obtain ⟨c, tail, rfl, hc, htail⟩ := List.map_eq_cons_iff.mp htail
  rw [hsuite, List.map_eq_nil_iff.mp htail, List.flatMap_cons, List.flatMap_cons, List.flatMap_cons,
    char_of_toLower ha (by decide), char_of_toLower hb (by decide), char_of_toLower hc (by decide)]
  rfl

/-- A head without a colon is looked for in the suite. -/
theorem startsWith_qualified {head : String} (hhead : ':' ∉ head.toList) :
    startsWith (qualified suite id) head = startsWith suite head := by
  unfold startsWith
  rw [toList_qualified, Bool.eq_iff_iff, List.isPrefixOf_iff_prefix, List.isPrefixOf_iff_prefix]
  constructor
  · intro h
    rcases List.prefix_or_prefix_of_prefix h (List.prefix_append suite.toList _) with hin | ⟨rest, hrest⟩
    · exact hin
    · rw [← hrest] at h hhead ⊢
      cases rest with
      | nil => rw [List.append_nil]
      | cons c rest =>
        rw [List.prefix_append_right_inj, List.cons_prefix_cons] at h
        rw [h.1] at hhead
        simp at hhead
  · exact fun h => h.trans (List.prefix_append _ _)

end Texts

/-! ## The plan -/

theorem row_eq_nil {α : Type} {c : Prop} [Decidable c] {a : α} {as rest : List α} :
    (if c then a :: as else rest) = [] ↔ ¬ c ∧ rest = [] := by
  by_cases h : c <;> simp [h]

theorem family_eq_nil_iff {id testerIp4 testerMac : String} :
    family id testerIp4 testerMac = [] ↔ conditioned id = false := by
  unfold family conditioned conditionedIds
  simp only [row_eq_nil, List.mem_cons, List.not_mem_nil, Bool.or_eq_false_iff, decide_eq_false_iff_not,
    Bool.not_eq_true]
  tauto

/-- No id of the table has a colon. -/
theorem conditionedIds_bare : ∀ id ∈ conditionedIds, ':' ∉ id.toList := by decide +kernel

theorem autoconfHeads_bare : ∀ head ∈ autoconfHeads, ':' ∉ head.toList := by decide +kernel

/-- A token with a suite is no bare key. -/
theorem qualified_not_mem {keys : List String} {suite id : String} (h : ∀ key ∈ keys, ':' ∉ key.toList) :
    qualified suite id ∉ keys :=
  fun hmem => h _ hmem (inTree_eq_false.mp inTree_qualified)

theorem any_startsWith_qualified (suite id : String) :
    autoconfHeads.any (startsWith (qualified suite id)) = autoconfHeads.any (startsWith suite) := by
  rw [Bool.eq_iff_iff, List.any_eq_true, List.any_eq_true]
  refine exists_congr fun head => and_congr_right fun hhead => ?_
  rw [startsWith_qualified (autoconfHeads_bare head hhead)]

theorem conditioned_qualified (suite id : String) :
    conditioned (qualified suite id) = autoconfHeads.any (startsWith suite) := by
  rw [conditioned, any_startsWith_qualified, decide_eq_false (qualified_not_mem conditionedIds_bare),
    Bool.false_or]

/-- A token with a suite is conditioned for what its suite is called. -/
theorem family_qualified (suite id testerIp4 testerMac : String) :
    family (qualified suite id) testerIp4 testerMac =
      if autoconfHeads.any (startsWith suite) then [.neighPin .dut testerIp4 testerMac true] else [] := by
  by_cases hhead : autoconfHeads.any (startsWith suite)
  · rw [if_pos hhead, family, if_neg (qualified_not_mem (by decide +kernel)),
      if_neg (qualified_not_mem (by decide +kernel)), if_neg (qualified_not_mem (by decide +kernel)),
      any_startsWith_qualified, if_pos hhead]
  · rw [if_neg hhead, family_eq_nil_iff, conditioned_qualified]
    simpa using hhead

/-- **The plan of a default-suite token** has the flush only, so it is that of the bare id exactly where
the table has nothing for the id. -/
theorem plan_default_iff {u : Uppercase} {suite id : String} (h : isDefaultSuite suite = true) :
    (∀ testerIp4 testerMac, plan u (qualified suite id) testerIp4 testerMac =
        plan u id testerIp4 testerMac) ↔ conditioned (u.text id) = false := by
  have hnone : autoconfHeads.any (startsWith "TC8") = false := by decide +kernel
  have hplan : ∀ testerIp4 testerMac, plan u (qualified suite id) testerIp4 testerMac = [.neighFlush .dut] := by
    intro testerIp4 testerMac
    rw [plan, text_qualified, text_default h, family_qualified, hnone]
    rfl
  constructor
  · intro hsame
    have heq := hsame "" ""
    rw [hplan, plan, List.cons_eq_cons] at heq
    exact family_eq_nil_iff.mp heq.2.symm
  · intro hnot testerIp4 testerMac
    rw [hplan, plan, family_eq_nil_iff.mpr hnot]

/-! ## The flavor -/

section Flavor

variable {table : String → Option DutVariant} {suite id : String}

theorem toAsciiUppercase_qualified (suite id : String) :
    toAsciiUppercase (qualified suite id) = qualified (toAsciiUppercase suite) (toAsciiUppercase id) := by
  apply String.toList_inj.mp
  rw [toList_qualified]
  simp [toAsciiUppercase, toList_qualified]

theorem colon_mem_toAsciiUppercase {s : String} : ':' ∈ (toAsciiUppercase s).toList ↔ ':' ∈ s.toList := by
  rw [toAsciiUppercase, String.toList_ofList, List.mem_map]
  constructor
  · rintro ⟨c, hc, hupper⟩
    have hcolon : c = ':' := by
      unfold Char.toUpper at hupper
      split at hupper
      · next hlower =>
        have hlow : 97 ≤ c.toNat := UInt32.le_iff_toNat_le.mp hlower.1
        have hhigh : c.toNat ≤ 122 := UInt32.le_iff_toNat_le.mp hlower.2
        have hval := congrArg (fun c : Char => c.val.toNat) hupper
        simp at hval
        omega
      · exact hupper
    exact hcolon ▸ hc
  · exact fun h => ⟨':', h, by decide⟩

theorem isDefaultSuite_toAsciiUppercase (s : String) : isDefaultSuite (toAsciiUppercase s) = isDefaultSuite s := by
  simp [isDefaultSuite, eqIgnoreAsciiCase, toAsciiUppercase, Function.comp_def]

theorem colon_not_mem_default (h : isDefaultSuite suite = true) : ':' ∉ suite.toList := by
  intro hmem
  have hlower : suite.toList.map Char.toLower = ['t', 'c', '8'] := by
    simpa [isDefaultSuite, eqIgnoreAsciiCase, defaultSuite] using h
  have hcolon : Char.toLower ':' ∈ ['t', 'c', '8'] := hlower ▸ List.mem_map_of_mem hmem
  exact absurd hcolon (by decide)

theorem split_bare (h : ':' ∉ id.toList) : split id = (none, id) := by
  have hall : id.toList.dropWhile (· ≠ ':') = [] := by
    rw [List.dropWhile_eq_nil_iff]
    intro c hc
    simpa using fun heq : c = ':' => h (heq ▸ hc)
  rw [split, hall]

theorem split_qualified (h : ':' ∉ suite.toList) : split (qualified suite id) = (some suite, id) := by
  have hall : ∀ c ∈ suite.toList, (decide (c ≠ ':')) = true :=
    fun c hc => decide_eq_true fun heq => h (heq ▸ hc)
  rw [split, toList_qualified, List.dropWhile_append_of_pos hall, List.takeWhile_append_of_pos hall]
  simp

/-- A token of the default suite is looked up as its id is. -/
theorem lookup_default (h : isDefaultSuite suite = true) (hid : ':' ∉ id.toList) :
    lookup table (qualified suite id) = lookup table id := by
  have hsuite : ':' ∉ (toAsciiUppercase suite).toList :=
    fun hmem => colon_not_mem_default h (colon_mem_toAsciiUppercase.mp hmem)
  have hbare : ':' ∉ (toAsciiUppercase id).toList := fun hmem => hid (colon_mem_toAsciiUppercase.mp hmem)
  have hdefault : isDefaultSuite (toAsciiUppercase suite) = true := by
    rw [isDefaultSuite_toAsciiUppercase, h]
  simp only [lookup, toAsciiUppercase_qualified, split_qualified hsuite, split_bare hbare, hdefault, if_true]

/-- A token of another suite gets the flavor of its own row, if any. -/
theorem lookup_foreign (h : isDefaultSuite suite = false) (hsuite : ':' ∉ suite.toList) {v : DutVariant}
    (hv : lookup table (qualified suite id) = .ok (some v)) :
    table (toAsciiUppercase (qualified suite id)) = some v := by
  have hcolon : ':' ∉ (toAsciiUppercase suite).toList :=
    fun hmem => hsuite (colon_mem_toAsciiUppercase.mp hmem)
  have hother : isDefaultSuite (toAsciiUppercase suite) = false := by
    rw [isDefaultSuite_toAsciiUppercase, h]
  rw [toAsciiUppercase_qualified]
  simp only [lookup, toAsciiUppercase_qualified, split_qualified hcolon, hother, Bool.false_eq_true,
    if_false] at hv
  cases hown : table (qualified (toAsciiUppercase suite) (toAsciiUppercase id)) with
  | some own =>
    rw [hown] at hv
    cases hv
    rfl
  | none =>
    rw [hown] at hv
    dsimp only at hv
    split at hv <;> nomatch hv

end Flavor


/-! ## The lanes -/

section Lanes

variable {u : Uppercase} {rows : List (UnitId × String)} {token token' : String}

theorem narrowToNamedCases_insert (before after : List String) :
    narrowToNamedCases u rows (before ++ token :: after) =
      rows.filter fun row => decide (u.text row.1.case = u.text token) ||
        ((before ++ after).map u.text).contains (u.text row.1.case) := by
  have hnamed : (before ++ token :: after).isEmpty = false := by simp
  rw [narrowToNamedCases, hnamed]
  refine List.filter_congr fun row _ => ?_
  rw [Bool.eq_iff_iff]
  simp only [List.contains_iff_mem, List.map_append, List.map_cons, List.mem_append, List.mem_cons,
    Bool.or_eq_true, decide_eq_true_eq]
  tauto

/-- Two tokens that are upper-cased differently narrow a lane alike exactly where it has rows of neither. -/
theorem narrow_same_iff (hne : u.text token ≠ u.text token') :
    (∀ before after, narrowToNamedCases u rows (before ++ token :: after) =
        narrowToNamedCases u rows (before ++ token' :: after)) ↔
      ∀ row ∈ rows, u.text row.1.case ≠ u.text token ∧ u.text row.1.case ≠ u.text token' := by
  constructor
  · intro hsame row hrow
    have hkept := hsame [] []
    rw [narrowToNamedCases_insert, narrowToNamedCases_insert] at hkept
    have hboth : u.text row.1.case = u.text token ↔ u.text row.1.case = u.text token' := by
      have hiff := congrArg (row ∈ ·) hkept
      simpa [List.mem_filter, hrow] using hiff
    refine ⟨fun h => hne (h.symm.trans (hboth.mp h)), fun h => hne ((hboth.mpr h).symm.trans h)⟩
  · intro hnone before after
    rw [narrowToNamedCases_insert, narrowToNamedCases_insert]
    refine List.filter_congr fun row hrow => ?_
    rw [decide_eq_false (hnone row hrow).1, decide_eq_false (hnone row hrow).2]

end Lanes

/-! ## The law -/

section Law

variable {u : Uppercase} {tables : Tables} {suite id : String}

theorem text_qualified_default (h : isDefaultSuite suite = true) :
    u.text (qualified suite id) = qualified "TC8" (u.text id) := by
  rw [text_qualified, text_default h]

theorem qualified_ne_bare (hid : ':' ∉ id.toList) : qualified suite (u.text id) ≠ u.text id := by
  intro heq
  have hcolon : ':' ∈ (u.text id).toList := by
    rw [← heq]
    exact inTree_eq_false.mp inTree_qualified
  exact hid (colon_mem_text.mp hcolon)

/-- Nothing the tables have tells the id from the same id with the default suite: no steps, a place in the
secondary-interface set under both keys or under none, and no rows in the lanes under either. -/
structure Untabled (u : Uppercase) (tables : Tables) (id : String) : Prop where
  conditioning : conditioned (u.text id) = false
  secondary : qualified "TC8" (u.text id) ∈ tables.secondaryIfaceCases ↔
    u.text id ∈ tables.secondaryIfaceCases
  lanes : ∀ row ∈ tables.lanes,
    u.text row.1.case ≠ qualified "TC8" (u.text id) ∧ u.text row.1.case ≠ u.text id

theorem sameDecisions_iff (h : isDefaultSuite suite = true) (hid : ':' ∉ id.toList) :
    SameDecisions u tables (qualified suite id) id ↔ Untabled u tables id := by
  have htoken := @text_qualified_default u suite id h
  have hne : u.text (qualified suite id) ≠ u.text id := by
    rw [htoken]
    exact qualified_ne_bare hid
  have hsecondary : needsSecondary u tables.secondaryIfaceCases (qualified suite id) =
      needsSecondary u tables.secondaryIfaceCases id ↔
        (qualified "TC8" (u.text id) ∈ tables.secondaryIfaceCases ↔
          u.text id ∈ tables.secondaryIfaceCases) := by
    rw [needsSecondary, needsSecondary, htoken, Bool.eq_iff_iff, List.contains_iff_mem,
      List.contains_iff_mem]
  constructor
  · intro hsame
    refine ⟨(plan_default_iff h).mp hsame.conditioning, hsecondary.mp hsame.secondary, fun row hrow => ?_⟩
    rw [← htoken]
    rcases List.mem_append.mp hrow with hrow | hrow
    · exact (narrow_same_iff hne).mp hsame.negative row hrow
    · exact (narrow_same_iff hne).mp hsame.knownFail row hrow
  · intro hnone
    have hlane : ∀ rows ⊆ tables.lanes, ∀ before after,
        narrowToNamedCases u rows (before ++ qualified suite id :: after) =
          narrowToNamedCases u rows (before ++ id :: after) := by
      intro rows hrows
      refine (narrow_same_iff hne).mpr fun row hrow => ?_
      rw [htoken]
      exact hnone.lanes row (hrows hrow)
    exact ⟨(plan_default_iff h).mpr hnone.conditioning, hsecondary.mpr hnone.secondary,
      lookup_default h hid, hlane _ (List.subset_append_left _ _), hlane _ (List.subset_append_right _ _)⟩

/-- A token of another suite: the tables are read at keys that carry the suite. -/
theorem noCoincidence (h : isDefaultSuite suite = false) (hsuite : ':' ∉ suite.toList) (id : String) :
    NoCoincidence u tables suite id := by
  refine ⟨fun id' testerIp4 testerMac => ?_, ?_, fun v hv => ?_, fun row hrow => ?_⟩
  · rw [plan, plan, text_qualified, text_qualified, family_qualified, family_qualified]
  · rw [needsSecondary, needsSecondary, text_qualified, Bool.eq_iff_iff, List.contains_iff_mem,
      List.contains_iff_mem, List.mem_filter, inTree_qualified]
    simp
  · refine ⟨toAsciiUppercase (qualified suite id), ?_, lookup_foreign h hsuite hv⟩
    rw [toAsciiUppercase_qualified]
    exact inTree_qualified
  · rw [narrowToNamedCases, if_neg (by simp), List.mem_filter] at hrow
    have hkey : u.text row.1.case = u.text (qualified suite id) := by simpa using hrow.2
    rw [inTree_eq_false, ← @colon_mem_text u, hkey, colon_mem_text, ← inTree_eq_false]
    exact inTree_qualified

/-- **Tokens of the default suite are treated as bare ones**, and no in-tree table is applied to another
suite's token for its id, exactly where no table but that of the flavors tells the two tokens apart. -/
theorem tokens_alike_iff (u : Uppercase) (tables : Tables) (hid : ':' ∉ id.toList) :
    ((∀ suite, isDefaultSuite suite = true → SameDecisions u tables (qualified suite id) id) ∧
        ∀ suite, isDefaultSuite suite = false → ':' ∉ suite.toList → NoCoincidence u tables suite id) ↔
      Untabled u tables id := by
  have hdefault : isDefaultSuite defaultSuite = true := by decide +kernel
  constructor
  · exact fun hall => (sameDecisions_iff hdefault hid).mp (hall.1 defaultSuite hdefault)
  · exact fun hnone => ⟨fun suite h => (sameDecisions_iff h hid).mpr hnone,
      fun suite h hsuite => noCoincidence h hsuite id⟩

end Law

/-! ## Two ids -/

/-- The table as far as ASCII goes. -/
def asciiUppercase : Uppercase where
  char c := [c.toUpper]
  ascii _ _ := rfl
  colon c h := by
    have hcolon : ':' ∈ (toAsciiUppercase (String.ofList [c])).toList := by
      simpa [toAsciiUppercase] using h
    simpa [eq_comm] using colon_mem_toAsciiUppercase.mp hcolon

/-- One in-tree flavor, and one row in the negative lane. -/
def someTables : Tables where
  secondaryIfaceCases := ["SOMEIP_ETS_120"]
  flavors key := if key = "SOMEIPSRV_RPC_14" then some ⟨none, ["TC8_DUT_INSTANCE_2=1"]⟩ else none
  negativeRows := [(⟨"ARP_35", 0⟩, "fail:arp_reply")]
  knownFails := []

theorem tokens_alike_arp_03 :
    (∀ suite, isDefaultSuite suite = true →
        SameDecisions asciiUppercase someTables (qualified suite "ARP_03") "ARP_03") ∧
      ∀ suite, isDefaultSuite suite = false → ':' ∉ suite.toList →
        NoCoincidence asciiUppercase someTables suite "ARP_03" :=
  (tokens_alike_iff asciiUppercase someTables (by decide +kernel)).mpr
    ⟨by decide +kernel, by decide +kernel, by decide +kernel⟩

/-- ARP_38 is conditioned when it is named bare, and not when it is named with its suite. -/
theorem not_alike_arp_38 : isDefaultSuite "tc8" = true ∧
    ¬ SameDecisions asciiUppercase someTables (qualified "tc8" "ARP_38") "ARP_38" := by
  refine ⟨by decide +kernel, fun hsame => ?_⟩
  exact absurd (hsame.conditioning "10.0.0.1" "02:00:00:00:00:01") (by decide +kernel)

end Tc8Harness.Orchestrator
