import YurtKernel.Network.Gateway

/-! Host lists and spellings of one host (`network/host-match.ts`, `network/gateway.ts`).

    Names that differ in letter case, or in one trailing dot, name the same DNS host. The lists are
    matched by characters, which is label by label, and so tell such spellings apart, unless a list
    covers the other spellings of its own patterns. -/

namespace Yurt.Network

section
variable (policy : NetworkPolicy) (mode : Option Mode) (host : Str)

def labels : List Str := host.splitOn '.'

/-- Pattern `*.suffix`, read as labels. -/
def Below (suffix host : Str) : Prop := ∃ front, front ≠ [] ∧ labels host = front ++ labels suffix

/-- The list names the host: by `*`, by `*.suffix`, or as it is spelled. -/
def Lists (l : List Str) (host : Str) : Prop :=
  ∃ pattern ∈ l, pattern = ['*'] ∨ (∃ suffix, pattern = ['*', '.'] ++ suffix ∧ Below suffix host) ∨
    ¬['*', '.'] <+: pattern ∧ host = pattern

def lowerCase : Str := host.map Char.toLower

def stripDot : Str := if host.getLast? = some '.' then host.dropLast else host

/-- The DNS name that a host string spells, without its trailing dot. -/
def dnsName : Str := lowerCase (stripDot host)

end

/-- The list names the other spellings of its own patterns, as far as they are seen; it names `*.suffix`
    if it names all that is below. -/
def Covers (Seen : Str → Prop) (l : List Str) : Prop :=
  ∀ pattern ∈ l, ∀ other, Seen pattern → Seen other → dnsName pattern = dnsName other → Lists l other

theorem labels_append_dot (front suffix : Str) :
    labels (front ++ '.' :: suffix) = labels front ++ labels suffix :=
  List.splitOnP_append_cons front suffix (by decide)

theorem intercalate_append {ls ms : List Str} (hls : ls ≠ []) (hms : ms ≠ []) :
    ['.'].intercalate (ls ++ ms) = ['.'].intercalate ls ++ '.' :: ['.'].intercalate ms := by
  induction ls with
  | nil => exact absurd rfl hls
  | cons l ls ih =>
    rcases ls with _ | ⟨l', ls⟩
    · simp [List.intercalate_cons_of_ne_nil hms]
    · have hrest := ih (by simp)
      rw [List.cons_append, List.cons_append, List.intercalate_cons_cons] at *
      simp [hrest]

theorem below_iff {suffix host : Str} : Below suffix host ↔ ∃ front, host = front ++ '.' :: suffix := by
  constructor
  · rintro ⟨front, hfront, heq⟩
    refine ⟨['.'].intercalate front, ?_⟩
    have hjoin := intercalate_append hfront (List.splitOn_ne_nil '.' suffix)
    rw [← labels, ← heq, labels, labels, List.intercalate_splitOn, List.intercalate_splitOn] at hjoin
    exact hjoin
  · rintro ⟨front, rfl⟩
    exact ⟨labels front, List.splitOn_ne_nil _ _, labels_append_dot front suffix⟩

theorem toLower_eq_dot {c : Char} : c.toLower = '.' ↔ c = '.' := by
  unfold Char.toLower
  split
  · rename_i hupper
    have hlow : 65 ≤ c.val.toNat := hupper.1
    have hhigh : c.val.toNat ≤ 90 := hupper.2
    refine iff_of_false (fun heq => ?_) (fun heq => ?_)
    · have hval : (c.val.toNat + 32) % 2 ^ 32 = 46 := congrArg Char.toNat heq
      omega
    · rw [heq] at hlow
      exact absurd hlow (by decide)
  · exact Iff.rfl

theorem stripDot_append (front : Str) {host : Str} (h : host ≠ []) :
    stripDot (front ++ host) = front ++ stripDot host := by
  unfold stripDot
  rw [List.getLast?_append_of_ne_nil _ h]
  split_ifs
  · rw [List.dropLast_append_of_ne_nil h]
  · rfl

theorem stripDot_cases (host : Str) : host = stripDot host ++ ['.'] ∨
    stripDot host = host ∧ host.getLast? ≠ some '.' := by
  unfold stripDot
  split_ifs with hdot
  · obtain ⟨init, rfl⟩ := List.getLast?_eq_some_iff.mp hdot
    simp
  · exact .inr ⟨rfl, hdot⟩

theorem dnsName_append (front : Str) {host : Str} (h : host ≠ []) :
    dnsName (front ++ host) = lowerCase front ++ dnsName host := by
  rw [dnsName, stripDot_append front h, lowerCase, List.map_append]
  rfl

/-- What stands before and after a dot is found in the other spelling. -/
theorem split_spelling {front suffix other : Str} (hsuffix : suffix ≠ [])
    (hsame : dnsName (front ++ '.' :: suffix) = dnsName other) :
    ∃ front' suffix', other = front' ++ '.' :: suffix' ∧ suffix' ≠ [] ∧ dnsName suffix = dnsName suffix' := by
  have hname : dnsName ('.' :: suffix) = '.' :: dnsName suffix := dnsName_append ['.'] hsuffix
  rw [dnsName_append front (List.cons_ne_nil _ _), hname, dnsName.eq_def other] at hsame
  obtain ⟨front', rest, hother, -, hrest⟩ := List.map_eq_append_iff.mp hsame.symm
  obtain ⟨c, rest, rfl, hc, hlower⟩ := List.map_eq_cons_iff.mp hrest
  obtain rfl := toLower_eq_dot.mp hc
  rcases stripDot_cases other with hdot | ⟨hsame, hlast⟩
  · refine ⟨front', rest ++ ['.'], by rw [hdot, hother]; simp, by simp, ?_⟩
    rw [dnsName_append rest (List.cons_ne_nil _ _), ← hlower]
    exact (List.append_nil _).symm
  · rw [hsame] at hother
    have hne : rest ≠ [] := by
      rintro rfl
      simp [hother] at hlast
    refine ⟨front', rest, hother, hne, ?_⟩
    rw [hother, show front' ++ '.' :: rest = (front' ++ ['.']) ++ rest by simp,
      List.getLast?_append_of_ne_nil _ hne] at hlast
    rw [← hlower, dnsName, stripDot, if_neg hlast]
    rfl

/-- Whatever the first label is. -/
theorem below_of_star {t suffix : Str} (front : Str) (h : Below t (['*', '.'] ++ suffix)) :
    Below t (front ++ '.' :: suffix) := by
  obtain ⟨first, hfirst, hlabels⟩ := h
  obtain ⟨label, more, rfl⟩ := List.exists_cons_of_ne_nil hfirst
  have hsplit : [['*']] ++ labels suffix = label :: (more ++ labels t) :=
    (labels_append_dot ['*'] suffix).symm.trans hlabels
  refine ⟨labels front ++ more, by simp [labels], ?_⟩
  rw [labels_append_dot, List.append_assoc]
  exact congrArg _ (List.cons.inj hsplit).2

section
variable {Seen : Str → Prop} {l : List Str} {host other : Str}

/-- A list that covers its patterns names all spellings of what it names. -/
theorem Covers.lists (hcovers : Covers Seen l) (hstar : Seen ['*'])
    (hbelow : ∀ front suffix, Seen (front ++ '.' :: suffix) → Seen (['*', '.'] ++ suffix))
    (hhost : Seen host) (hother : Seen other) (hsame : dnsName host = dnsName other) (hlists : Lists l host) :
    Lists l other := by
  obtain ⟨pattern, hmem, rfl | ⟨suffix, rfl, hsuffix⟩ | ⟨-, rfl⟩⟩ := hlists
  · exact ⟨_, hmem, .inl rfl⟩
  · obtain ⟨front, rfl⟩ := below_iff.mp hsuffix
    have hseen := hbelow front suffix hhost
    rcases eq_or_ne suffix [] with rfl | hne
    · -- `*.` is `*` with a trailing dot, and only `*` names `*`
      obtain ⟨pattern, hmem', rfl | ⟨suffix, -, hsuffix⟩ | ⟨-, rfl⟩⟩ := hcovers _ hmem ['*'] hseen hstar rfl
      · exact ⟨_, hmem', .inl rfl⟩
      · obtain ⟨front, hfront⟩ := below_iff.mp hsuffix
        cases front <;> simp at hfront
      · exact ⟨_, hmem', .inl rfl⟩
    · obtain ⟨front', suffix', rfl, hne', hname⟩ := split_spelling hne hsame
      have hpattern : dnsName (['*', '.'] ++ suffix) = dnsName (['*', '.'] ++ suffix') := by
        rw [dnsName_append _ hne, dnsName_append _ hne', hname]
      obtain ⟨pattern, hmem', rfl | ⟨t, rfl, ht⟩ | ⟨hno, rfl⟩⟩ :=
        hcovers _ hmem _ hseen (hbelow front' suffix' hother) hpattern
      · exact ⟨_, hmem', .inl rfl⟩
      · exact ⟨_, hmem', .inr (.inl ⟨t, rfl, below_of_star front' ht⟩)⟩
      · exact absurd (List.prefix_append _ _) hno
  · exact hcovers _ hmem other hhost hother hsame

end

end Yurt.Network
