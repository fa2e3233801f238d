import StreamGuard.Text.Quoted

namespace StreamGuard.Path

def split : List Char → List (List Char)
  | [] => [[]]
  | c :: cs =>
    if c = '/' then [] :: split cs
    else
      match split cs with
      | [] => [[c]]
      | p :: ps => (c :: p) :: ps

def join : List (List Char) → List Char
  | [] => []
  | [p] => p
  | p :: ps => p ++ '/' :: join ps

def root : List Char → List Char
  | '/' :: '/' :: '/' :: _ => ['/']
  | '/' :: '/' :: _ => ['/', '/']
  | '/' :: _ => ['/']
  | _ => []

def isNamed (p : List Char) : Bool :=
  !p.isEmpty && p != ['.']

def plainChars (cs : List Char) : List Char :=
  match root cs ++ join ((split cs).filter isNamed) with
  | [] => ['.']
  | plain => plain

def plain (s : String) : String :=
  String.ofList (plainChars s.toList)

def isAddressChars (cs : List Char) : Bool :=
  ['h', 't', 't', 'p', ':', '/', '/'].isPrefixOf cs || ['h', 't', 't', 'p', 's', ':', '/', '/'].isPrefixOf cs

def isAddress (s : String) : Bool :=
  isAddressChars s.toList

theorem slash_not_mem_split {cs p : List Char} (h : p ∈ split cs) : '/' ∉ p := by
  induction cs generalizing p with
  | nil => simp_all [split]
  | cons c cs ih =>
    simp only [split] at h
    split at h
    · rcases List.mem_cons.1 h with rfl | h
      · simp
      · exact ih h
    · rename_i hc
      split at h
      · rw [List.mem_singleton] at h
        subst h
        simpa using Ne.symm hc
      · rename_i q qs hq
        rcases List.mem_cons.1 h with rfl | h
        · simp [Ne.symm hc, ih (p := q) (by simp [hq])]
        · exact ih (by simp [hq, h])

def doubled : List Char → Bool
  | '/' :: '/' :: _ => true
  | _ :: cs => doubled cs
  | [] => false

theorem doubled_cons_of_ne {c : Char} {cs : List Char} (h : c ≠ '/') : doubled (c :: cs) = doubled cs := by
  simp [doubled, h]

theorem doubled_slash_cons {c : Char} {cs : List Char} (h : c ≠ '/') :
    doubled ('/' :: c :: cs) = doubled cs := by
  simp [doubled, h]

theorem doubled_append {p cs : List Char} (h : '/' ∉ p) : doubled (p ++ cs) = doubled cs := by
  induction p with
  | nil => rfl
  | cons c p ih =>
    simp only [List.mem_cons, not_or] at h
    rw [List.cons_append, doubled_cons_of_ne (Ne.symm h.1), ih h.2]

theorem doubled_join {ps : List (List Char)} (h : ∀ p ∈ ps, p ≠ [] ∧ '/' ∉ p) : doubled (join ps) = false := by
  induction ps with
  | nil => rfl
  | cons p ps ih =>
    have hp := h p (by simp)
    have hps : ∀ q ∈ ps, q ≠ [] ∧ '/' ∉ q := fun q hq => h q (by simp [hq])
    cases ps with
    | nil => simpa [join, doubled] using @doubled_append p [] hp.2
    | cons q qs =>
      rw [show join (p :: q :: qs) = p ++ '/' :: join (q :: qs) from rfl, doubled_append hp.2]
      have hq := hps q (by simp)
      have ihq := ih hps
      obtain ⟨c, q', rfl⟩ := List.exists_cons_of_ne_nil hq.1
      have hc : c ≠ '/' := fun e => hq.2 (by simp [e])
      cases qs with
      | nil =>
        simp only [join] at ihq ⊢
        rw [doubled_slash_cons hc, ← doubled_cons_of_ne hc]
        exact ihq
      | cons r rs =>
        rw [show join ((c :: q') :: r :: rs) = c :: (q' ++ '/' :: join (r :: rs)) from rfl] at ihq ⊢
        rw [doubled_slash_cons hc, ← doubled_cons_of_ne hc]
        exact ihq

theorem doubled_of_isAddressChars {cs : List Char} (h : isAddressChars cs = true) : doubled cs = true := by
  simp only [isAddressChars, Bool.or_eq_true, List.isPrefixOf_iff_prefix] at h
  rcases h with ⟨t, rfl⟩ | ⟨t, rfl⟩ <;> simp [doubled]

theorem head_of_isAddressChars {cs : List Char} (h : isAddressChars cs = true) : cs.head? = some 'h' := by
  simp only [isAddressChars, Bool.or_eq_true, List.isPrefixOf_iff_prefix] at h
  rcases h with ⟨t, rfl⟩ | ⟨t, rfl⟩ <;> rfl

theorem root_head {cs : List Char} (h : root cs ≠ []) : (root cs).head? = some '/' := by
  unfold root at h ⊢
  split <;> simp_all

theorem isAddressChars_plainChars (cs : List Char) : isAddressChars (plainChars cs) = false := by
  rw [Bool.eq_false_iff]
  intro h
  have hparts : ∀ p ∈ (split cs).filter isNamed, p ≠ [] ∧ '/' ∉ p := by
    intro p hp
    rw [List.mem_filter] at hp
    refine ⟨fun e => ?_, slash_not_mem_split hp.1⟩
    simp [e, isNamed] at hp
  unfold plainChars at h
  split at h
  · simp [isAddressChars] at h
  · by_cases hr : root cs = []
    · have hd := doubled_of_isAddressChars h
      rw [hr, List.nil_append, doubled_join hparts] at hd
      cases hd
    · have hh := head_of_isAddressChars h
      rw [List.head?_append, root_head hr] at hh
      simp at hh

theorem isAddress_plain (s : String) : isAddress (plain s) = false := by
  simp [isAddress, plain, isAddressChars_plainChars]

theorem isAddress_quotedBytes (bs : Bytes) : isAddress (Text.Quoted.bytes bs) = false := by
  rw [Bool.eq_false_iff]
  intro h
  have := head_of_isAddressChars h
  rw [Text.Quoted.bytes_head] at this
  simp at this

end StreamGuard.Path
