import Zenstier.Mqtt.Topic

/-!
# Access control of a broker

The access-control lists of Mosquitto's dynamic-security plugin.  The roles of a client are
lists of ACLs; `%u` in the topic of an ACL stands for the name of the user, `%c` for the id of
the client.  Of the ACLs of the right type that apply to a topic, the one of the highest
priority decides; if none applies, the default of the type does.  A message is published if
the sender may publish to its topic, and received if the recipient may receive on it and has a
subscription that it was allowed to make.
-/

namespace Mqtt

inductive AclType
  | publishClientSend
  | publishClientReceive
  | subscribePattern
  | unsubscribePattern
deriving DecidableEq, Repr

structure Acl where
  acltype : AclType
  topic : String
  priority : Nat
  allow : Bool
deriving DecidableEq, Repr

/-- A connected client, with the ACLs of all its roles. -/
structure Client where
  username : String
  clientid : String
  acls : List Acl
deriving DecidableEq, Repr

/-! ## Patterns -/

/-- Replaces `%u` and `%c`. -/
def substitute (username clientid : List Char) : List Char → List Char
  | '%' :: 'u' :: cs => username ++ substitute username clientid cs
  | '%' :: 'c' :: cs => clientid ++ substitute username clientid cs
  | c :: cs => c :: substitute username clientid cs
  | [] => []

theorem substitute_of_notMem {username clientid cs : List Char} (h : '%' ∉ cs) :
    substitute username clientid cs = cs := by
  induction cs with
  | nil => rfl
  | cons c cs ih =>
      rw [List.mem_cons, not_or] at h
      rw [substitute, ih h.2]
      · rintro cs' rfl
        exact absurd rfl h.1
      · rintro cs' rfl
        exact absurd rfl h.1

theorem substitute_append {username clientid cs : List Char} (h : '%' ∉ cs) (ds : List Char) :
    substitute username clientid (cs ++ ds) = cs ++ substitute username clientid ds := by
  induction cs with
  | nil => rfl
  | cons c cs ih =>
      rw [List.mem_cons, not_or] at h
      rw [List.cons_append, substitute, ih h.2, List.cons_append]
      · rintro cs' rfl
        exact absurd rfl h.1
      · rintro cs' rfl
        exact absurd rfl h.1

/-- The filter that the topic of an ACL stands for. -/
def Client.pattern (c : Client) (topic : String) : String :=
  String.ofList (substitute c.username.toList c.clientid.toList topic.toList)

theorem Client.pattern_of_notMem (c : Client) {topic : String} (h : '%' ∉ topic.toList) :
    c.pattern topic = topic := by
  rw [pattern, substitute_of_notMem h, String.ofList_toList]

/-- The name of the user between two parts of a pattern. -/
theorem Client.pattern_username (c : Client) {a b : String} (ha : '%' ∉ a.toList)
    (hb : '%' ∉ b.toList) : c.pattern (a ++ "%u" ++ b) = a ++ c.username ++ b := by
  refine String.toList_injective ?_
  have huser : "%u".toList = ['%', 'u'] := by decide
  rw [pattern, String.toList_ofList, String.toList_append, String.toList_append, huser,
    List.append_assoc, substitute_append ha]
  show a.toList ++ (c.username.toList ++ substitute _ _ b.toList) = _
  rw [substitute_of_notMem hb, String.toList_append, String.toList_append, List.append_assoc]

/-! ## Decisions -/

/-- The ACL of the highest priority, and the first of several. -/
def highest : List Acl → Option Acl
  | [] => none
  | a :: as => match highest as with
      | none => some a
      | some b => if a.priority < b.priority then some b else some a

theorem mem_of_highest {as : List Acl} {a : Acl} (h : highest as = some a) : a ∈ as := by
  induction as with
  | nil => cases h
  | cons b as ih =>
      rw [highest] at h
      cases hrest : highest as with
      | none =>
          rw [hrest] at h
          exact Option.some.inj h ▸ List.mem_cons_self
      | some c =>
          rw [hrest] at h
          dsimp only at h
          split at h
          · exact List.mem_cons_of_mem b (ih (Option.some.inj h ▸ hrest))
          · exact Option.some.inj h ▸ List.mem_cons_self

theorem highest_eq_none {as : List Acl} : highest as = none ↔ as = [] := by
  constructor
  · intro h
    cases as with
    | nil => rfl
    | cons a as =>
        rw [highest] at h
        split at h
        · cases h
        · split at h <;> cases h
  · rintro rfl
    rfl

/-- Whether the client may do what the type says, by the ACLs whose topic applies. -/
def Client.decides (c : Client) (default : AclType → Bool) (acltype : AclType)
    (applies : String → Bool) : Bool :=
  match highest (c.acls.filter fun a ↦ a.acltype = acltype ∧ applies (c.pattern a.topic)) with
  | some a => a.allow
  | none => default acltype

/-- What is not allowed by default is allowed by some ACL. -/
theorem Client.exists_of_decides {c : Client} {default : AclType → Bool} {acltype : AclType}
    {applies : String → Bool} (hdefault : default acltype = false)
    (h : c.decides default acltype applies = true) :
    ∃ a ∈ c.acls, a.acltype = acltype ∧ a.allow = true ∧ applies (c.pattern a.topic) = true := by
  unfold decides at h
  split at h
  · rename_i a ha
    obtain ⟨hmem, hp⟩ := List.mem_filter.mp (mem_of_highest ha)
    obtain ⟨htype, happlies⟩ := of_decide_eq_true hp
    exact ⟨a, hmem, htype, h, happlies⟩
  · rw [hdefault] at h
    cases h

/-- It is allowed where every ACL that applies allows it, and one does. -/
theorem Client.decides_of_exists {c : Client} {default : AclType → Bool} {acltype : AclType}
    {applies : String → Bool}
    (hallow : ∀ a ∈ c.acls, a.acltype = acltype → applies (c.pattern a.topic) = true →
      a.allow = true)
    {a : Acl} (ha : a ∈ c.acls) (htype : a.acltype = acltype)
    (happlies : applies (c.pattern a.topic) = true) :
    c.decides default acltype applies = true := by
  unfold decides
  split
  · rename_i b hb
    obtain ⟨hmem, hp⟩ := List.mem_filter.mp (mem_of_highest hb)
    obtain ⟨htype', happlies'⟩ := of_decide_eq_true hp
    exact hallow b hmem htype' happlies'
  · rename_i hnone
    have hmem : a ∈ c.acls.filter fun a ↦ a.acltype = acltype ∧ applies (c.pattern a.topic) :=
      List.mem_filter.mpr ⟨ha, decide_eq_true ⟨htype, happlies⟩⟩
    rw [highest_eq_none.mp hnone] at hmem
    cases hmem

/-! ## Publishing and receiving -/

/-- Every topic of a subscription is one of the pattern. -/
def coverLevels : List String → List String → Bool
  | [], ss => ss.isEmpty
  | f :: fs, ss =>
      if f = "#" ∧ fs = [] then true
      else match ss with
        | [] => false
        | s :: ss => ((f = "+" && s ≠ "#") || f = s) && coverLevels fs ss

def covers (pattern subscription : String) : Bool :=
  isReserved pattern = isReserved subscription &&
    coverLevels (levels pattern) (levels subscription)

theorem coverLevels_self (fs : List String) : coverLevels fs fs = true := by
  induction fs with
  | nil => rfl
  | cons f fs ih =>
      unfold coverLevels
      split
      · rfl
      · show ((decide (f = "+") && decide (f ≠ "#") || decide (f = f)) && coverLevels fs fs) = true
        rw [ih, decide_eq_true rfl, Bool.or_true, Bool.and_true]

theorem covers_self (filter : String) : covers filter filter = true := by
  rw [covers, coverLevels_self, decide_eq_true rfl]
  rfl

namespace Client

variable (c : Client) (default : AclType → Bool)

def mayPublish (topic : String) : Prop :=
  c.decides default .publishClientSend (matchTopic · topic) = true

def maySubscribe (subscription : String) : Prop :=
  c.decides default .subscribePattern (covers · subscription) = true

/-- A message on the topic may reach the client: through a subscription that it could make. -/
def mayReceive (topic : String) : Prop :=
  c.decides default .publishClientReceive (matchTopic · topic) = true ∧
    ∃ subscription, c.maySubscribe default subscription ∧ matchTopic subscription topic = true

end Client

end Mqtt
