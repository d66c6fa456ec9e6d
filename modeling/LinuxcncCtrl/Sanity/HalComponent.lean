import LinuxcncCtrl.Spec.HalComponent

/-! Which writes a component accepts, and what it was last written. Whether a write is accepted depends
on the component's items alone, and on an item with its own suffix only on that item. -/

namespace LinuxcncCtrl

namespace HalComponent

variable {F : Type} {component : HalComponent F} {suffix other : HalName}
  {value : HalAdapterValue F} {more : List (HalName × HalAdapterValue F)}

@[simp] theorem write_items (component : HalComponent F) (suffix : HalName)
    (value : HalAdapterValue F) : (component.write suffix value).1.items = component.items := by
  unfold write
  split_ifs <;> rfl

theorem accepts_congr {component' : HalComponent F} (h : component'.items = component.items)
    (suffix : HalName) (value : HalAdapterValue F) :
    component'.accepts suffix value = component.accepts suffix value := by
  unfold accepts
  rw [h]

theorem write_accepted (h : component.accepts suffix value = true) : component.write suffix value =
      ({ component with writes := component.writes ++ [(suffix, value)] }, true) :=
  if_pos h

theorem writes_write (h : component.accepts suffix value = true) :
    (component.write suffix value).1.writes = component.writes ++ [(suffix, value)] := by
  rw [write_accepted h]

theorem lastWritten_append (component : HalComponent F)
    (more : List (HalName × HalAdapterValue F)) (suffix : HalName) :
    lastWritten { component with writes := component.writes ++ more } suffix =
      (lastWritten { component with writes := more } suffix).or (component.lastWritten suffix) := by
  unfold lastWritten
  rw [List.filter_append, List.getLast?_append, Option.map_or]

theorem lastWritten_none (component : HalComponent F) (h : suffix ∉ more.map Prod.fst) :
    lastWritten { component with writes := more } suffix = none := by
  unfold lastWritten
  rw [List.filter_eq_nil_iff.mpr]
  · rfl
  · intro write hwrite hsuffix
    exact h (List.mem_map.mpr ⟨write, hwrite, of_decide_eq_true hsuffix⟩)

theorem lastWritten_mem (component : HalComponent F)
    (hdistinct : (more.map Prod.fst).Nodup) (h : (suffix, value) ∈ more) :
    lastWritten { component with writes := more } suffix = some value := by
  unfold lastWritten
  cases hlast : (more.filter fun write => decide (write.1 = suffix)).getLast? with
  | none =>
    rw [List.getLast?_eq_none_iff, List.filter_eq_nil_iff] at hlast
    exact absurd (decide_eq_true rfl) (hlast _ h)
  | some write =>
    obtain ⟨hwrite, hsuffix⟩ := List.mem_filter.mp (List.mem_of_getLast? hlast)
    have heq : write = (suffix, value) :=
      List.inj_on_of_nodup_map hdistinct hwrite h (of_decide_eq_true hsuffix)
    rw [heq]
    rfl

theorem accepts_of_mem {item : HalComponentItem}
    (hdistinct : (component.items.map HalComponentItem.suffix).Nodup) (hitem : item ∈ component.items)
    (htype : value.type = item.type) (hdirection : item.direction ≠ .pin .input) :
    component.accepts item.suffix value = true := by
  unfold accepts
  cases hfind : component.items.find? fun other => decide (other.suffix = item.suffix) with
  | none => exact absurd (List.find?_eq_none.mp hfind item hitem) (by simp)
  | some found =>
    have hsuffix : found.suffix = item.suffix := by simpa using List.find?_some hfind
    obtain rfl : found = item :=
      List.inj_on_of_nodup_map hdistinct (List.mem_of_find?_eq_some hfind) hitem hsuffix
    simp [htype, hdirection]

end HalComponent

end LinuxcncCtrl
