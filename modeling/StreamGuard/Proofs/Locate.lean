import StreamGuard.Workspace

namespace StreamGuard

variable {objects : List Object} {id below : Nat} {l : Located}

theorem locate_lt (h : locate objects id = some l) : id < objects.length := by
  rw [locate] at h
  cases ho : objects[id]? with
  | none => simp [ho] at h
  | some o => exact (List.getElem?_eq_some_iff.1 ho).1

theorem locate_append (more : List Object) (h : locate objects id = some l) :
    locate (objects ++ more) id = some l := by
  -- References lead to older objects only, so none of them reaches what was added.
  induction hn : id using Nat.strongRecOn generalizing id l with
  | ind n ih =>
    subst hn
    have hget : (objects ++ more)[id]? = objects[id]? := List.getElem?_append_left (locate_lt h)
    rw [locate] at h ⊢
    rw [hget]
    cases ho : objects[id]? with
    | none => simp [ho] at h
    | some o =>
      rw [ho] at h
      cases o with
      | reader r below =>
        simp only [Option.ite_none_right_eq_some, Option.map_eq_some_iff] at h ⊢
        obtain ⟨hlt, l', hl, rfl⟩ := h
        exact ⟨hlt, l', ih below hlt hl rfl, rfl⟩
      | localSource a below =>
        simp only [Option.ite_none_right_eq_some, Option.map_eq_some_iff] at h ⊢
        obtain ⟨hlt, l', hl, rfl⟩ := h
        exact ⟨hlt, l', ih below hlt hl rfl, rfl⟩
      | remoteSource r below =>
        simp only at h ⊢
        cases hb : objects[below]? with
        | none => simp [hb] at h
        | some o =>
          rw [List.getElem?_append_left (List.getElem?_eq_some_iff.1 hb).1, hb]
          rwa [hb] at h
      | script | memory | file | body => exact h

section

variable (h : locate objects below = some l)

include h

theorem locate_reader (r : Reader) :
    locate (objects ++ [.reader r below]) objects.length = some (l.push objects.length (.reader r)) := by
  rw [locate, List.getElem?_concat_length]
  simp [locate_lt h, locate_append _ h]

theorem locate_localSource (a : FileAdapter) :
    locate (objects ++ [.localSource a below]) objects.length = some (l.push objects.length (.file a)) := by
  rw [locate, List.getElem?_concat_length]
  simp [locate_lt h, locate_append _ h]

end

theorem locate_endpoint {o : Object} {e : Endpoint} (h : objects[id]? = some o) (he : o.endpoint? = some e) :
    locate objects id = some (.ofSource id e) := by
  rw [locate, h]
  cases o with
  | reader | localSource | remoteSource => cases he
  | script | memory | file | body =>
    cases he
    rfl

theorem locate_remoteSource {url : String} {s : Script} (r : Remote) (h : objects[below]? = some (.body url s)) :
    locate (objects ++ [.remoteSource r below]) objects.length =
      some (.ofRemote objects.length below r (.script s)) := by
  rw [locate, List.getElem?_concat_length]
  simp only
  rw [List.getElem?_append_left (List.getElem?_eq_some_iff.1 h).1, h]
  rfl

end StreamGuard
