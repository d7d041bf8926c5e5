import YurtKernel.Network.Gateway

/-! Where the credentials of a request go.

    The gateway drops `Authorization` and `Cookie` when a redirect leaves the hostname of the start URL.
    An origin is more than a hostname: a redirect to another scheme or port of the same host keeps
    them. -/

namespace Yurt.Network
variable {s : Session} {n : Nat} {leg : Leg}

/-! ### What is sent -/

namespace Session

/-- The lists and the callback let the request of this pass go. -/
def Allows (s : Session) (n : Nat) (leg : Leg) : Prop :=
  s.policy.checkAccess s.platform leg.url = none ∧
    ∀ ask, s.policy.onRequest = some ask → ask n (s.request n leg).toCall = true

def startLeg (s : Session) : Leg := ⟨s.url, s.options.method.getD "GET".toList, s.options.body⟩

/-- The answers of the servers lead to this leg, and nothing on the way is denied. -/
inductive Reaches (s : Session) : Nat → Leg → Prop
  | start : Reaches s 0 s.startLeg
  | next {n : Nat} {leg next : Leg} {resp : Response} : Reaches s n leg → n < maxRedirects →
    s.Allows n leg → s.answers n = some resp → s.follow leg resp = .inr next → Reaches s (n + 1) next

theorem hop_of_allows (h : s.Allows n leg) : requests (s.hop n leg).1 = [s.request n leg] ∧
      ∀ resp, s.answers n = some resp → (s.hop n leg).2 = s.follow leg resp := by
  unfold Session.hop
  rw [h.1]
  dsimp only
  cases hask : s.policy.onRequest with
  | none => cases hans : s.answers n <;> simp [requests]
  | some ask => cases hans : s.answers n <;> simp [requests, h.2 ask hask]

/-- A pass that sends or goes on was allowed, and goes on where the answer says. -/
theorem allows_of_hop : (∀ r ∈ requests (s.hop n leg).1, s.Allows n leg ∧ r = s.request n leg) ∧
    (∀ next, (s.hop n leg).2 = .inr next →
      s.Allows n leg ∧ ∃ resp, s.answers n = some resp ∧ s.follow leg resp = .inr next) := by
  unfold Session.hop Session.Allows
  cases hcheck : s.policy.checkAccess s.platform leg.url with
  | some reason => simp [requests]
  | none =>
    dsimp only
    cases hask : s.policy.onRequest with
    | none => cases hans : s.answers n <;> simp [requests]
    | some ask =>
      cases hallowed : ask n (s.request n leg).toCall <;> cases hans : s.answers n <;>
        simp [requests, hallowed]

/-- The loop sends what is reached and allowed. -/
theorem reaches_of_mem (left : Nat) : ∀ {leg : Leg}, left ≤ maxRedirects →
    s.Reaches (maxRedirects - left) leg → ∀ r ∈ requests (s.loop left leg).1,
      ∃ n leg, s.Reaches n leg ∧ s.Allows n leg ∧ r = s.request n leg := by
  induction left with
  | zero =>
    intro leg _ hreach r hr
    obtain ⟨-, -, hloop⟩ | ⟨-, -, ⟨-, hloop⟩ | ⟨rest, hrest, -⟩⟩ := s.loop_eq 0 leg
    · exact ⟨_, leg, hreach, Session.allows_of_hop.1 r (hloop ▸ hr)⟩
    · exact ⟨_, leg, hreach, Session.allows_of_hop.1 r (hloop ▸ hr)⟩
    · cases hrest
  | succ left ih =>
    intro leg hleft hreach r hr
    have hhop : r ∈ requests (s.hop (maxRedirects - (left + 1)) leg).1 → ∃ n leg, s.Reaches n leg ∧
        s.Allows n leg ∧ r = s.request n leg :=
      fun hr => ⟨_, leg, hreach, Session.allows_of_hop.1 r hr⟩
    obtain ⟨-, -, hloop⟩ | ⟨next, hnext, ⟨hzero, -⟩ | ⟨rest, hrest, hloop⟩⟩ := s.loop_eq (left + 1) leg
    · exact hhop (hloop ▸ hr)
    · cases hzero
    · obtain rfl : left = rest := Nat.succ.inj hrest
      rw [hloop, requests_append, List.mem_append] at hr
      obtain hr | hr := hr
      · exact hhop hr
      · obtain ⟨hallows, resp, hans, hfollow⟩ := Session.allows_of_hop.2 next hnext
        have hstep := hreach.next (by omega) hallows hans hfollow
        rw [show maxRedirects - (left + 1) + 1 = maxRedirects - left by omega] at hstep
        exact ih (by omega) hstep r hr

/-- What is reached is part of the run. -/
theorem Reaches.sub (h : s.Reaches n leg) : n ≤ maxRedirects ∧
    ∀ r ∈ requests (s.loop (maxRedirects - n) leg).1, r ∈ requests s.fetch.1 := by
  induction h with
  | start => exact ⟨Nat.zero_le _, fun _ hr => hr⟩
  | @next n leg next resp _ hn hallows hans hfollow ih =>
    refine ⟨hn, fun r hr => ih.2 r ?_⟩
    have hleft : maxRedirects - n = maxRedirects - (n + 1) + 1 := by omega
    have hcount : maxRedirects - (maxRedirects - n) = n := by omega
    have hhop := (Session.hop_of_allows hallows).2 resp hans
    obtain ⟨outcome, hend, -⟩ | ⟨next', hnext, ⟨hzero, -⟩ | ⟨rest, hrest, hloop⟩⟩ :=
      s.loop_eq (maxRedirects - n) leg
    · rw [hcount, hhop, hfollow] at hend
      cases hend
    · omega
    · rw [hcount, hhop, hfollow] at hnext
      obtain rfl := Sum.inr.inj hnext
      obtain rfl : rest = maxRedirects - (n + 1) := by omega
      rw [hloop, requests_append]
      exact List.mem_append_right _ hr

theorem Reaches.mem (h : s.Reaches n leg) (hallows : s.Allows n leg) :
    s.request n leg ∈ requests s.fetch.1 := by
  obtain ⟨hn, hsub⟩ := h.sub
  have hcount : maxRedirects - (maxRedirects - n) = n := by omega
  have hhop := (Session.hop_of_allows hallows).1
  refine hsub _ ?_
  obtain ⟨-, -, hloop⟩ | ⟨next, -, ⟨-, hloop⟩ | ⟨rest, -, hloop⟩⟩ := s.loop_eq (maxRedirects - n) leg
  · rw [hloop, hcount, hhop]
    exact List.mem_singleton_self _
  · rw [hloop, hcount, hhop]
    exact List.mem_singleton_self _
  · rw [hloop, requests_append, hcount, hhop]
    exact List.mem_append_left _ (List.mem_singleton_self _)

/-- Who was redirected had a start URL that was allowed. -/
theorem Reaches.start_allowed (h : s.Reaches n leg) :
    n = 0 ∧ leg = s.startLeg ∨ s.Allows 0 s.startLeg := by
  induction h with
  | start => exact .inl ⟨rfl, rfl⟩
  | next _ _ hallows _ _ ih =>
    obtain ⟨rfl, rfl⟩ | hstart := ih
    · exact .inr hallows
    · exact .inr hstart

theorem Allows.parsed (h : s.Allows n leg) :
    ∃ url, s.platform.parse leg.url = some url ∧ s.platform.extractHost leg.url = some url.hostname := by
  obtain ⟨host, hhost, -⟩ := NetworkPolicy.passes_of_checkAccess h.1
  obtain ⟨url, hurl, -⟩ := Option.map_eq_some_iff.mp hhost
  exact ⟨url, hurl, by rw [Platform.extractHost, hurl]; rfl⟩

end Session

/-! ### Headers -/

theorem mem_keys_setHeader (headers : List (Str × Str)) (e : Str × Str) (key : Str) :
    (∃ h ∈ setHeader headers e, h.1 = key) ↔ (∃ h ∈ headers, h.1 = key) ∨ e.1 = key := by
  unfold setHeader
  split_ifs with hany
  · obtain ⟨old, hold, hkey⟩ := List.any_eq_true.mp hany
    simp only [List.mem_map, exists_exists_and_eq_and]
    constructor
    · rintro ⟨h, hmem, heq⟩
      split_ifs at heq
      · exact .inr heq
      · exact .inl ⟨h, hmem, heq⟩
    · rintro (⟨h, hmem, heq⟩ | heq)
      · refine ⟨h, hmem, ?_⟩
        split_ifs with hsame
        · exact hsame.symm.trans heq
        · exact heq
      · exact ⟨old, hold, by rw [if_pos (by simpa using hkey)]; exact heq⟩
  · simp [or_and_right, exists_or]

/-- The record has the names that were given. -/
theorem RequestInit.mem_keys_record (options : RequestInit) (key : Str) :
    (∃ h ∈ options.record, h.1 = key) ↔ ∃ h ∈ options.headers, h.1 = key := by
  have hfold : ∀ (es headers : List (Str × Str)), (∃ h ∈ es.foldl setHeader headers, h.1 = key) ↔
      (∃ h ∈ headers, h.1 = key) ∨ ∃ h ∈ es, h.1 = key := by
    intro es
    induction es with
    | nil => simp
    | cons e es ih =>
      intro headers
      rw [List.foldl_cons, ih, mem_keys_setHeader, or_assoc, List.exists_mem_cons_iff]
  simpa [RequestInit.record] using hfold options.headers []

theorem toNat_lt_of_toLower {c : Char} (h : c.toLower.toNat < 128) : c.toNat < 128 := by
  by_cases hupper : c.val ≥ 'A'.val ∧ c.val ≤ 'Z'.val
  · exact lt_of_le_of_lt (UInt32.le_iff_toNat_le.mp hupper.2) (by decide)
  · rwa [Char.toLower, dif_neg hupper] at h

/-- Stripping finds every spelling. -/
theorem not_sensitive_of_mem_strip {P : Platform} {headers : List (Str × Str)} {h : Str × Str}
    (hmem : h ∈ stripSensitiveHeaders P headers) : ¬Sensitive h.1 := by
  intro hsens
  have hascii : ∀ name ∈ sensitiveHeaderNames, ∀ c ∈ name, c.toNat < 128 := by
    simp [sensitiveHeaderNames]
  have hlow := P.toLowerCase_ascii h.1 (fun c hc =>
    toNat_lt_of_toLower (hascii _ hsens _ (List.mem_map_of_mem hc)))
  have hnot := (List.mem_filter.mp hmem).2
  simp only [decide_eq_true_eq] at hnot
  exact hnot (hlow ▸ hsens)

/-! ### Credentials -/

/-- No request to another origin carries credentials of the caller. -/
def Session.KeepsCredentials (s : Session) : Prop :=
  ∀ r ∈ requests s.fetch.1, s.platform.parse r.url ≠ s.platform.parse s.url →
    ∀ h ∈ r.headers, ¬Sensitive h.1

/-- Every URL that the servers lead to and the policy allows, and that has the hostname of the start
    URL, has its scheme and port too. -/
def Session.SameHostSameOrigin (s : Session) : Prop := ∀ n leg, s.Reaches n leg → s.Allows n leg →
    s.platform.extractHost leg.url = s.platform.extractHost s.url →
    s.platform.parse leg.url = s.platform.parse s.url

/-- To the hostname of the start URL the headers go as they are. -/
theorem Session.headersFor_of_same {url : Str}
    (h : s.platform.extractHost url = s.platform.extractHost s.url) :
    s.headersFor n url = s.options.record := by
  unfold Session.headersFor
  rw [h]
  split
  · next heq heq' =>
    obtain rfl := Option.mem_unique heq heq'
    simp
  · rfl

theorem Session.headersFor_of_ne {url host original : Str} (hn : 0 < n)
    (horiginal : s.platform.extractHost s.url = some original)
    (hhost : s.platform.extractHost url = some host) (hne : host ≠ original) :
    s.headersFor n url = stripSensitiveHeaders s.platform s.options.record := by
  simp [Session.headersFor, horiginal, hhost, hn, hne]

/-- Credentials stay with their origin exactly if there are none, or no redirect changes the scheme or
    port of the start URL and keeps its hostname. -/
theorem credentials_stay_iff (s : Session) :
    s.KeepsCredentials ↔ (∀ h ∈ s.options.headers, ¬Sensitive h.1) ∨ s.SameHostSameOrigin := by
  constructor
  · intro hkeeps
    by_contra hnot
    simp only [not_or, not_forall, not_not] at hnot
    obtain ⟨⟨h, hmem, hsens⟩, hcross⟩ := hnot
    refine hcross (fun n leg hreach hallows hsame => ?_)
    by_contra hne
    obtain ⟨h', hmem', heq⟩ := (s.options.mem_keys_record h.1).mpr ⟨h, hmem, rfl⟩
    refine hkeeps _ (hreach.mem hallows) hne h' ?_ (heq ▸ hsens)
    change h' ∈ s.headersFor n leg.url
    rwa [Session.headersFor_of_same hsame]
  · rintro hcond r hr hne h hmem
    obtain ⟨n, leg, hreach, hallows, rfl⟩ :=
      Session.reaches_of_mem maxRedirects le_rfl (by exact Session.Reaches.start) r hr
    obtain ⟨hn, rfl⟩ | hstart := hreach.start_allowed
    · exact absurd rfl hne
    obtain ⟨url, hurl, hhost⟩ := hallows.parsed
    obtain ⟨start, hparse, horiginal⟩ := hstart.parsed
    change h ∈ s.headersFor n leg.url at hmem
    by_cases hsame : s.platform.extractHost leg.url = s.platform.extractHost s.url
    · obtain hnone | hcross := hcond
      · rw [Session.headersFor_of_same hsame] at hmem
        obtain ⟨h', hmem', heq⟩ := (s.options.mem_keys_record h.1).mp ⟨h, hmem, rfl⟩
        exact heq ▸ hnone h' hmem'
      · exact absurd (hcross n leg hreach hallows hsame) hne
    · have hpos : 0 < n := by
        cases hreach with
        | start => exact absurd rfl hne
        | next => exact Nat.succ_pos _
      rw [Session.headersFor_of_ne hpos horiginal hhost (fun heq => hsame ?_)] at hmem
      · exact not_sensitive_of_mem_strip hmem
      · rw [hhost, heq]
        exact horiginal.symm

/-! ### A downgrade -/

/-- The platform on two URLs. -/
def twoUrls : Platform where
  parse url :=
    if url = "https://a/".toList then some ⟨"https".toList, "a".toList, 443⟩
    else if url = "http://a/".toList then some ⟨"http".toList, "a".toList, 80⟩
    else none
  resolve location _ := some location
  toLowerCase s := s.map Char.toLower
  toLowerCase_ascii _ _ := rfl

/-- `https://a/` answers with a redirect to `http://a/`. -/
def downgrade : Session where
  platform := twoUrls
  policy := ⟨some ["a".toList], none, none⟩
  url := "https://a/".toList
  options := ⟨none, [("Authorization".toList, "secret".toList)], none⟩
  answers n := if n = 0 then some ⟨302, some "http://a/".toList⟩ else some ⟨200, none⟩

/-- The token goes out over plain HTTP. -/
theorem downgrade_leaks_token : ¬downgrade.KeepsCredentials := by
  intro h
  exact h ⟨⟨"http://a/".toList, "GET".toList, [("Authorization".toList, "secret".toList)]⟩, none⟩
    (by decide) (by decide) _ List.mem_cons_self (by decide)

end Yurt.Network
