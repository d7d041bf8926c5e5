import Mathlib

/-! The network gateway (`network/gateway.ts`, `network/host-match.ts`).

    `fetch` follows redirects itself: before each hop it rebuilds the headers, asks the policy and the
    callback, and only then calls the real `fetch`. The servers are a list of answers, one for each
    call; what they answer may depend on anything. A run leaves a trace of what was asked and sent. -/

namespace Yurt.Network

abbrev Str := List Char

/-- What a parsed URL says about its server. -/
structure Url where
  scheme : Str
  hostname : Str
  port : Nat
  deriving DecidableEq

/-- The platform: `new URL(s)`, `new URL(location, base).href` and `toLowerCase`. Header names are
    matched without regard to ASCII case. -/
structure Platform where
  parse : Str → Option Url
  resolve : Str → Str → Option Str
  toLowerCase : Str → Str
  toLowerCase_ascii : ∀ s : Str, (∀ c ∈ s, c.toNat < 128) → toLowerCase s = s.map Char.toLower

/-! ### Policy -/

/-- Does a hostname match a pattern of the list? -/
def matchesHostList (host : Str) : List Str → Bool
  | [] => false
  | pattern :: list =>
    if pattern = ['*'] then true
    else if ['*', '.'].isPrefixOf pattern then
      let suffix := pattern.drop 2
      if suffix.isSuffixOf host && suffix.length < host.length &&
          host[host.length - suffix.length - 1]? = some '.' then true
      else matchesHostList host list
    else if host = pattern then true
    else matchesHostList host list

/-- What the callback is asked about. -/
structure Call where
  url : Str
  method : Str
  headers : List (Str × Str)
  deriving DecidableEq

/-- Lists and callback; the callback may answer differently each time it is asked. -/
structure NetworkPolicy where
  allowedHosts : Option (List Str)
  blockedHosts : Option (List Str)
  onRequest : Option (Nat → Call → Bool)

section
variable (policy : NetworkPolicy)

/-- The host passes the allow list or, without one, the block list. -/
def NetworkPolicy.Passes (host : Str) : Prop :=
  (∃ l, policy.allowedHosts = some l ∧ matchesHostList host l = true) ∨
    policy.allowedHosts = none ∧ ∃ l, policy.blockedHosts = some l ∧ matchesHostList host l = false

/-- `none` is allowed; otherwise the reason. -/
def NetworkPolicy.checkHostAccess (host : Str) : Option Str :=
  match policy.allowedHosts, policy.blockedHosts with
  | some l, _ =>
    if matchesHostList host l then none
    else some ("host ".toList ++ host ++ " not in allowedHosts".toList)
  | none, some l =>
    if matchesHostList host l then some ("host ".toList ++ host ++ " is in blockedHosts".toList)
    else none
  | none, none => some "no network policy configured (default deny)".toList

def Platform.extractHost (P : Platform) (url : Str) : Option Str := (P.parse url).map Url.hostname

def NetworkPolicy.checkAccess (P : Platform) (url : Str) : Option Str :=
  match P.extractHost url with
  | none => some "invalid URL".toList
  | some host => policy.checkHostAccess host

end

theorem NetworkPolicy.passes_of_checkAccess {policy : NetworkPolicy} {P : Platform} {url : Str}
    (h : policy.checkAccess P url = none) :
    ∃ host, P.extractHost url = some host ∧ policy.Passes host := by
  unfold checkAccess at h
  split at h
  · cases h
  · next host hhost =>
    refine ⟨host, hhost, ?_⟩
    unfold checkHostAccess at h
    split at h
    · next l hl =>
      split_ifs at h with hmatch
      exact .inl ⟨l, hl, hmatch⟩
    · next l hnone hl =>
      split_ifs at h with hmatch
      exact .inr ⟨hnone, l, hl, by simpa using hmatch⟩
    · cases h

/-! ### Headers -/

/-- `headers[k] = v`. -/
def setHeader (headers : List (Str × Str)) (e : Str × Str) : List (Str × Str) :=
  if headers.any (fun h => h.1 = e.1) then headers.map (fun h => if h.1 = e.1 then e else h)
  else headers ++ [e]

def sensitiveHeaderNames : List Str := ["authorization".toList, "cookie".toList]

def stripSensitiveHeaders (P : Platform) (headers : List (Str × Str)) : List (Str × Str) :=
  headers.filter (fun h => P.toLowerCase h.1 ∉ sensitiveHeaderNames)

/-- A spelling of `Authorization` or `Cookie`. -/
def Sensitive (key : Str) : Prop := key.map Char.toLower ∈ sensitiveHeaderNames

instance (key : Str) : Decidable (Sensitive key) := inferInstanceAs (Decidable (_ ∈ _))

/-- The options of a call; `headers` are the pairs that a `Headers`, an array or a record yields. -/
structure RequestInit where
  method : Option Str
  headers : List (Str × Str)
  body : Option Str

def RequestInit.record (options : RequestInit) : List (Str × Str) := options.headers.foldl setHeader []

/-! ### The loop -/

structure Request extends Call where
  body : Option Str
  deriving DecidableEq

structure Response where
  status : Nat
  location : Option Str
  deriving DecidableEq

inductive Event where
  | asked (call : Call) (allowed : Bool)
  | sent (request : Request)
  | answered (status : Nat)
  deriving DecidableEq

inductive Outcome where
  | response (resp : Response)
  | denied (url reason : Str)
  | failed
  deriving DecidableEq

def maxRedirects : Nat := 5
def redirectStatuses : List Nat := [301, 302, 303, 307, 308]

/-- Where the next request goes. -/
structure Leg where
  url : Str
  method : Str
  body : Option Str

/-- One call of `fetch`: its policy, start URL and options, and the answers of the servers (`none`: the
    real `fetch` throws). -/
structure Session where
  platform : Platform
  policy : NetworkPolicy
  url : Str
  options : RequestInit
  answers : Nat → Option Response

variable (s : Session)

namespace Session

/-- Credentials go only to the hostname of the start URL. -/
def headersFor (redirectCount : Nat) (url : Str) : List (Str × Str) :=
  match s.platform.extractHost s.url, s.platform.extractHost url with
  | some originalHost, some currentHost =>
    if 0 < redirectCount ∧ currentHost ≠ originalHost then
      stripSensitiveHeaders s.platform s.options.record
    else s.options.record
  | _, _ => s.options.record

def request (redirectCount : Nat) (leg : Leg) : Request :=
  ⟨⟨leg.url, leg.method, s.headersFor redirectCount leg.url⟩, leg.body⟩

/-- The answer to a request: the end, or the next leg. -/
def follow (leg : Leg) (resp : Response) : Outcome ⊕ Leg :=
  if resp.status ∉ redirectStatuses then .inl (.response resp)
  else match resp.location with
    | none | some [] => .inl (.response resp)
    | some location =>
      match s.platform.resolve location leg.url with
      | none => .inl .failed
      | some next =>
        if resp.status = 303 then .inr ⟨next, "GET".toList, none⟩
        else .inr { leg with url := next }

/-- One pass of the loop. -/
def hop (redirectCount : Nat) (leg : Leg) : List Event × (Outcome ⊕ Leg) :=
  let request := s.request redirectCount leg
  match s.policy.checkAccess s.platform leg.url with
  | some reason => ([], .inl (.denied leg.url reason))
  | none =>
    let asked := s.policy.onRequest.map (fun onRequest => onRequest redirectCount request.toCall)
    let before := (asked.map (Event.asked request.toCall)).toList
    if asked = some false then
      (before, .inl (.denied leg.url "denied by onRequest callback".toList))
    else match s.answers redirectCount with
      | none => (before ++ [.sent request], .inl .failed)
      | some resp => (before ++ [.sent request, .answered resp.status], s.follow leg resp)

/-- The loop, with the redirects that are left. -/
def loop : Nat → Leg → List Event × Outcome
  | left, leg =>
    match s.hop (maxRedirects - left) leg with
    | (events, .inl outcome) => (events, outcome)
    | (events, .inr next) =>
      match left with
      | 0 => (events, .denied next.url "too many redirects".toList)
      | left + 1 =>
        let rest := Session.loop left next
        (events ++ rest.1, rest.2)

def fetch : List Event × Outcome :=
  s.loop maxRedirects ⟨s.url, s.options.method.getD "GET".toList, s.options.body⟩

end Session

/-! ### One pass -/

variable {s} {n : Nat} {leg next : Leg}

/-- A pass sends nothing, or it sends one request that was checked and approved. -/
theorem Session.hop_cases (s : Session) (n : Nat) (leg : Leg) :
    (∃ outcome, (s.hop n leg).2 = .inl outcome ∧ ∀ r, Event.sent r ∉ (s.hop n leg).1) ∨
    s.policy.checkAccess s.platform leg.url = none ∧
    ∃ before after, (s.hop n leg).1 = before ++ .sent (s.request n leg) :: after ∧
      (before = [] ∧ s.policy.onRequest = none ∨ before = [.asked (s.request n leg).toCall true]) ∧
      (after = [] ∧ (s.hop n leg).2 = .inl .failed ∨
        ∃ resp, after = [.answered resp.status] ∧ (s.hop n leg).2 = s.follow leg resp) := by
  unfold Session.hop
  cases hcheck : s.policy.checkAccess s.platform leg.url with
  | some reason => exact .inl ⟨_, rfl, fun _ => List.not_mem_nil⟩
  | none =>
    dsimp only
    cases hask : s.policy.onRequest with
    | none =>
      refine .inr ⟨rfl, ?_⟩
      cases s.answers n with
      | none => exact ⟨[], [], rfl, .inl ⟨rfl, rfl⟩, .inl ⟨rfl, rfl⟩⟩
      | some resp => exact ⟨[], _, rfl, .inl ⟨rfl, rfl⟩, .inr ⟨resp, rfl, rfl⟩⟩
    | some ask =>
      cases hallowed : ask n (s.request n leg).toCall with
      | false =>
        refine .inl ⟨.denied leg.url "denied by onRequest callback".toList, ?_, fun r => ?_⟩ <;>
          simp [hallowed]
      | true =>
        refine .inr ⟨rfl, [.asked (s.request n leg).toCall true], ?_⟩
        cases s.answers n with
        | none => exact ⟨[], by simp [hallowed], .inr rfl, .inl ⟨rfl, by simp [hallowed]⟩⟩
        | some resp =>
          exact ⟨[.answered resp.status], by simp [hallowed], .inr rfl,
            .inr ⟨resp, rfl, by simp [hallowed]⟩⟩

/-- After a 303 the next request is a `GET` without a body, and so it stays. -/
theorem Session.follow_get {resp : Response} (h : s.follow leg resp = .inr next)
    (hget : resp.status = 303 ∨ leg.method = "GET".toList ∧ leg.body = none) :
    next.method = "GET".toList ∧ next.body = none := by
  unfold Session.follow at h
  split at h
  · cases h
  · split at h
    · cases h
    · cases h
    · split at h
      · cases h
      · split_ifs at h with h303
        · cases h
          exact ⟨rfl, rfl⟩
        · cases h
          exact hget.resolve_left h303

/-! ### The trace -/

/-- What has to be true of a request, given the events before it. -/
structure Session.Lawful (s : Session) (before : List Event) (r : Request) : Prop where
  passes : ∃ host, s.platform.extractHost r.url = some host ∧ s.policy.Passes host
  approved : s.policy.onRequest.isSome → ∃ earlier, before = earlier ++ [.asked r.toCall true]
  get : Event.answered 303 ∈ before → r.method = "GET".toList ∧ r.body = none

/-- Requests of a trace, in order. -/
def requests : List Event → List Request
  | [] => []
  | .sent r :: events => r :: requests events
  | _ :: events => requests events

theorem requests_append (es es' : List Event) : requests (es ++ es') = requests es ++ requests es' := by
  induction es with
  | nil => rfl
  | cons e es ih => cases e <;> simp [requests, ih]

theorem mem_requests {r : Request} : ∀ {es : List Event}, r ∈ requests es ↔ Event.sent r ∈ es
  | [] => by simp [requests]
  | e :: es => by cases e <;> simp [requests, mem_requests]

theorem requests_eq_nil {es : List Event} (h : ∀ r, Event.sent r ∉ es) : requests es = [] :=
  List.eq_nil_iff_forall_not_mem.mpr (fun r hr => h r (mem_requests.mp hr))

/-- The only request among events is found in one way. -/
theorem only_sent {before after pre post : List Event} {q r : Request}
    (hbefore : ∀ r, Event.sent r ∉ before) (hafter : ∀ r, Event.sent r ∉ after)
    (heq : before ++ .sent q :: after = pre ++ .sent r :: post) : pre = before ∧ r = q := by
  obtain ⟨mid, hmid, hrest⟩ | ⟨mid, hmid, hrest⟩ := List.append_eq_append_iff.mp heq
  · cases mid with
    | nil => exact ⟨by simpa using hmid, by simpa using (List.cons.inj hrest).1.symm⟩
    | cons e mid =>
      obtain ⟨-, hin⟩ := List.cons.inj hrest
      exact absurd (hin ▸ List.mem_append_right mid List.mem_cons_self) (hafter r)
  · cases mid with
    | nil => exact ⟨by simpa using hmid.symm, by simpa using (List.cons.inj hrest).1⟩
    | cons e mid =>
      obtain ⟨rfl, -⟩ := List.cons.inj hrest
      exact absurd (hmid ▸ List.mem_append_right pre List.mem_cons_self) (hbefore r)

namespace Session

/-- The request of a pass, in a trace that goes on behind it. -/
theorem hop_lawful {past : List Event}
    (hget : Event.answered 303 ∈ past → leg.method = "GET".toList ∧ leg.body = none) :
    ∀ pre r post, (s.hop n leg).1 = pre ++ .sent r :: post → s.Lawful (past ++ pre) r := by
  intro pre r post heq
  obtain ⟨-, -, hnone⟩ | ⟨hcheck, before, after, hevents, hbefore, hafter⟩ := s.hop_cases n leg
  · exact absurd (heq ▸ List.mem_append_right pre List.mem_cons_self) (hnone r)
  have hpre : pre = before ∧ r = s.request n leg := by
    refine only_sent (fun r => ?_) (fun r => ?_) (hevents.symm.trans heq)
    · obtain ⟨rfl, -⟩ | rfl := hbefore <;> simp
    · obtain ⟨rfl, -⟩ | ⟨resp, rfl, -⟩ := hafter <;> simp
  obtain ⟨rfl, rfl⟩ := hpre
  refine ⟨NetworkPolicy.passes_of_checkAccess hcheck, fun hask => ?_, fun hmem => hget ?_⟩
  · obtain ⟨-, hnone⟩ | rfl := hbefore
    · simp [hnone] at hask
    · exact ⟨past, rfl⟩
  · obtain ⟨rfl, -⟩ | rfl := hbefore
    · simpa using hmem
    · simpa using hmem

/-- The leg that follows a pass knows of every 303 so far. -/
theorem hop_next {past : List Event} (h : (s.hop n leg).2 = .inr next)
    (hget : Event.answered 303 ∈ past → leg.method = "GET".toList ∧ leg.body = none) :
    Event.answered 303 ∈ past ++ (s.hop n leg).1 → next.method = "GET".toList ∧ next.body = none := by
  intro hmem
  obtain ⟨outcome, hend, -⟩ | ⟨-, before, after, hevents, hbefore, hafter⟩ := s.hop_cases n leg
  · rw [hend] at h
    cases h
  obtain ⟨-, hfail⟩ | ⟨resp, rfl, hfollow⟩ := hafter
  · rw [hfail] at h
    cases h
  refine Session.follow_get (hfollow.symm.trans h) ?_
  rw [hevents] at hmem
  obtain ⟨rfl, -⟩ | rfl := hbefore <;>
    simp only [List.mem_append, List.mem_cons, List.not_mem_nil, reduceCtorEq, Event.answered.injEq,
      or_false, false_or, List.nil_append] at hmem <;>
    exact hmem.elim (fun hpast => .inr (hget hpast)) (fun h303 => .inl h303.symm)

/-- Unfolding the loop by one pass. -/
theorem loop_eq (s : Session) (left : Nat) (leg : Leg) :
    (∃ outcome, (s.hop (maxRedirects - left) leg).2 = .inl outcome ∧
      (s.loop left leg).1 = (s.hop (maxRedirects - left) leg).1) ∨
    ∃ next, (s.hop (maxRedirects - left) leg).2 = .inr next ∧
      (left = 0 ∧ (s.loop left leg).1 = (s.hop (maxRedirects - left) leg).1 ∨ ∃ rest, left = rest + 1 ∧
          (s.loop left leg).1 = (s.hop (maxRedirects - left) leg).1 ++ (s.loop rest next).1) := by
  cases left with
  | zero =>
    rw [Session.loop]
    generalize s.hop (maxRedirects - 0) leg = r
    obtain ⟨events, outcome | next⟩ := r
    · exact .inl ⟨outcome, rfl, rfl⟩
    · exact .inr ⟨next, rfl, .inl ⟨rfl, rfl⟩⟩
  | succ rest =>
    rw [Session.loop]
    generalize s.hop (maxRedirects - (rest + 1)) leg = r
    obtain ⟨events, outcome | next⟩ := r
    · exact .inl ⟨outcome, rfl, rfl⟩
    · exact .inr ⟨next, rfl, .inr ⟨rest, rfl, rfl⟩⟩

/-- Every request of the loop is lawful after what was asked, sent and answered before it. -/
theorem loop_lawful (left : Nat) : ∀ {leg : Leg} {past : List Event},
    (Event.answered 303 ∈ past → leg.method = "GET".toList ∧ leg.body = none) →
    ∀ pre r post, (s.loop left leg).1 = pre ++ .sent r :: post → s.Lawful (past ++ pre) r := by
  induction left with
  | zero =>
    intro leg past hget pre r post heq
    obtain ⟨-, -, hloop⟩ | ⟨-, -, ⟨-, hloop⟩ | ⟨rest, hrest, -⟩⟩ := s.loop_eq 0 leg
    · exact Session.hop_lawful hget pre r post (hloop.symm.trans heq)
    · exact Session.hop_lawful hget pre r post (hloop.symm.trans heq)
    · cases hrest
  | succ left ih =>
    intro leg past hget pre r post heq
    obtain ⟨-, -, hloop⟩ | ⟨next, hnext, ⟨hzero, -⟩ | ⟨rest, hrest, hloop⟩⟩ := s.loop_eq (left + 1) leg
    · exact Session.hop_lawful hget pre r post (hloop.symm.trans heq)
    · cases hzero
    obtain rfl : left = rest := Nat.succ.inj hrest
    rw [hloop] at heq
    -- the request is one of this pass or one of the rest
    obtain ⟨mid, hmid, hrest⟩ | ⟨mid, hmid, hrest⟩ := List.append_eq_append_iff.mp heq
    · have hlaw := ih (Session.hop_next hnext hget) mid r post hrest
      rwa [List.append_assoc, ← hmid] at hlaw
    · cases mid with
      | nil =>
        have hlaw := ih (Session.hop_next hnext hget) [] r post hrest.symm
        rwa [hmid, List.append_nil, List.append_nil] at hlaw
      | cons e mid =>
        obtain ⟨rfl, -⟩ := List.cons.inj hrest
        exact Session.hop_lawful hget pre r mid hmid

theorem requests_hop_length (s : Session) (n : Nat) (leg : Leg) :
    (requests (s.hop n leg).1).length ≤ 1 := by
  obtain ⟨-, -, hnone⟩ | ⟨-, before, after, hevents, hbefore, hafter⟩ := s.hop_cases n leg
  · rw [requests_eq_nil hnone]
    exact Nat.zero_le 1
  · rw [hevents]
    obtain ⟨rfl, -⟩ | rfl := hbefore <;> obtain ⟨rfl, -⟩ | ⟨resp, rfl, -⟩ := hafter <;>
      simp [requests]

theorem requests_loop_length (left : Nat) : ∀ leg : Leg,
    (requests (s.loop left leg).1).length ≤ left + 1 := by
  induction left with
  | zero =>
    intro leg
    have hhop := s.requests_hop_length (maxRedirects - 0) leg
    obtain ⟨-, -, hloop⟩ | ⟨-, -, ⟨-, hloop⟩ | ⟨rest, hrest, -⟩⟩ := s.loop_eq 0 leg
    · exact hloop ▸ hhop
    · exact hloop ▸ hhop
    · cases hrest
  | succ left ih =>
    intro leg
    have hhop := s.requests_hop_length (maxRedirects - (left + 1)) leg
    obtain ⟨-, -, hloop⟩ | ⟨next, -, ⟨hzero, -⟩ | ⟨rest, hrest, hloop⟩⟩ := s.loop_eq (left + 1) leg
    · rw [hloop]
      omega
    · cases hzero
    · obtain rfl : left = rest := Nat.succ.inj hrest
      have hrest := ih next
      rw [hloop, requests_append, List.length_append]
      omega

end Session

/-- Whatever the servers answer: every request goes to a host that passes, was approved just before,
    and is a `GET` without a body after a 303; there are at most six. -/
theorem fetch_sends_only_allowed (s : Session) :
    (∀ pre r post, s.fetch.1 = pre ++ .sent r :: post → s.Lawful pre r) ∧
      (requests s.fetch.1).length ≤ 6 := by
  refine ⟨fun pre r post heq => ?_, s.requests_loop_length maxRedirects _⟩
  exact Session.loop_lawful maxRedirects (fun h => absurd h List.not_mem_nil) pre r post heq

end Yurt.Network
