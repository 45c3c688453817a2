/-! Values with notes, taken in order on the way to them. -/
namespace NotificationRelay

structure Noted (ν α : Type) where
  notes : List ν
  value : α
deriving DecidableEq, Repr

namespace Noted

variable {ν μ α β : Type}

instance : Monad (Noted ν) where
  pure a := ⟨[], a⟩
  bind x f := ⟨x.notes ++ (f x.value).notes, (f x.value).value⟩

def note (n : ν) : Noted ν Unit := ⟨[n], ()⟩

def mapNotes (f : ν → μ) (x : Noted ν α) : Noted μ α := ⟨x.notes.map f, x.value⟩

@[simp]
theorem notes_pure (a : α) : (pure a : Noted ν α).notes = [] := rfl

@[simp]
theorem value_pure (a : α) : (pure a : Noted ν α).value = a := rfl

@[simp]
theorem notes_bind (x : Noted ν α) (f : α → Noted ν β) :
    (x >>= f).notes = x.notes ++ (f x.value).notes := rfl

@[simp]
theorem value_bind (x : Noted ν α) (f : α → Noted ν β) : (x >>= f).value = (f x.value).value := rfl

@[simp]
theorem notes_note (n : ν) : (note n).notes = [n] := rfl

theorem bind_of_pure (a : α) (f : α → Noted ν β) : (pure a >>= f) = f a := rfl

theorem mapNotes_pure (f : ν → μ) (a : α) : (pure a : Noted ν α).mapNotes f = pure a := rfl

@[simp]
theorem notes_mapNotes (f : ν → μ) (x : Noted ν α) : (x.mapNotes f).notes = x.notes.map f := rfl

@[simp]
theorem value_mapNotes (f : ν → μ) (x : Noted ν α) : (x.mapNotes f).value = x.value := rfl

end Noted

end NotificationRelay
