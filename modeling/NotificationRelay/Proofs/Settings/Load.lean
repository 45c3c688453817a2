import NotificationRelay.Proofs.Net.SocketAddress
import NotificationRelay.Proofs.Settings.Layer
import NotificationRelay.Proofs.Shape.Source
import NotificationRelay.Server.Basic
import NotificationRelay.Settings.Load

/-! The settings that a server starts with: where each of them comes from, and that a server can use
them all. -/
namespace NotificationRelay

/-- Settings of which nothing is said are the default ones. -/
theorem RelaySettings.take_of_silent {υ : Type} {source : Source υ} {x : υ}
    {members : List (String × υ)} (held : source.record x = some (.inl members))
    (silent : ∀ m ∈ members, m.1 ∉ ["version", "name", "admission", "transform"]) :
    RelaySettings.shape.take source x = some .default := by
  rw [RelaySettings.shape, Shape.take_record (by decide) held,
    Shape.ofMembers_of_silent _ _ silent 0]
  rfl

namespace ServerSettings

open Layer (Apart find path tidy_putAll)

def merged (environment : List (String × String)) (members : List (String × Json)) : Json :=
  Layer.putAll (Layer.ofEnvironment variableMark ["api_keys"] environment)
    (Layer.putAll members (.object []))

section

variable {environment before after : List (String × String)} {members : List (String × Json)}

/-- The variable is a setting on a path, or below or above it. -/
def Touches (place : List String) (spelled : String) : Prop :=
  ∃ name, Layer.nameOf? variableMark spelled = some name ∧ ¬ Apart (path name) place

theorem tidy_empty : Json.Tidy (.object []) := .table .nil fun _ none => nomatch none

theorem apart_of_untouched {place : List String}
    (untouched : ∀ v ∈ environment, ¬ Touches place v.1) :
    ∀ named ∈ Layer.ofEnvironment variableMark ["api_keys"] environment,
      Apart (path named.1) place := by
  intro named among
  obtain ⟨v, there, found⟩ := List.mem_filterMap.mp among
  obtain ⟨name, said, rfl⟩ := Option.map_eq_some_iff.mp found
  by_contra touches
  exact untouched v there ⟨name, said, touches⟩

/-- Where the environment says nothing, the settings file counts. -/
theorem find_merged_of_untouched {place : List String}
    (untouched : ∀ v ∈ environment, ¬ Touches place v.1) :
    find place (some (merged environment members)) =
      find place (some (Layer.putAll members (.object []))) :=
  Layer.find_putAll_of_apart (tidy_putAll tidy_empty) (apart_of_untouched untouched)

/-- Whatever the settings file says, the last variable for a setting counts. -/
theorem find_merged {spelled written name : String}
    (said : Layer.nameOf? variableMark spelled = some name)
    (last : ∀ v ∈ after, ¬ Touches (path name) v.1) :
    find (path name) (some (merged (before ++ (spelled, written) :: after) members)) =
      some (Layer.ofVariable (["api_keys"].contains name) written) := by
  have parts : Layer.ofEnvironment variableMark ["api_keys"] (before ++ (spelled, written) :: after) =
      Layer.ofEnvironment variableMark ["api_keys"] before ++
        (name, Layer.ofVariable (["api_keys"].contains name) written) ::
          Layer.ofEnvironment variableMark ["api_keys"] after := by
    simp [Layer.ofEnvironment, said]
  rw [merged, parts, Layer.find_putAll (tidy_putAll tidy_empty) (apart_of_untouched last),
    Layer.cover_ofVariable]

end

section

variable {environment : List (String × String)} {files : String → Option String}
  {s held : ServerSettings} {lines : List Log.Line}

theorem nodup_eraseDups (keys : List String) : keys.eraseDups.Nodup := by
  generalize size : keys.length = n
  induction n using Nat.strong_induction_on generalizing keys with
  | _ n ih =>
    cases keys with
    | nil => exact .nil
    | cons key rest =>
      rw [List.eraseDups_cons]
      refine List.nodup_cons.mpr ⟨fun again => ?_, ih _ ?_ _ rfl⟩
      · simpa using List.mem_eraseDups.mp again
      · exact size ▸ Nat.lt_succ_of_le (List.length_filter_le ..)

theorem nodup_of_take {value : Json} (found : shape.take Layer.source value = some held) :
    held.keys.Nodup := by
  obtain ⟨values, rfl⟩ := Shape.build_of_take found
  exact nodup_eraseDups _

theorem readRelayFile_some (found : readRelayFile files held = some s) :
    (∃ relay, s = { held with relay }) ∧
      ∀ name, held.relayFile = some name → RelaySettings.ofFile files name = .ok s.relay := by
  unfold readRelayFile at found
  split at found
  · next none =>
    cases found
    exact ⟨⟨_, rfl⟩, fun name named => nomatch none.symm.trans named⟩
  · next name named =>
    obtain ⟨relay, read, rfl⟩ := Option.map_eq_some_iff.mp found
    refine ⟨⟨relay, rfl⟩, fun other same => ?_⟩
    obtain rfl := Option.some.inj (named.symm.trans same)
    cases file : RelaySettings.ofFile files name with
    | error fault => simp [file, Except.toOption] at read
    | ok relay => simp_all [Except.toOption]

/-- What a file says of the relay is never what makes settings useless. -/
theorem check_of_readRelayFile {name : String} (found : readRelayFile files held = some s)
    (named : held.relayFile = some name) :
    s.check = .ok () ↔ 0 < held.sessionCapacity := by
  obtain ⟨⟨relay, rfl⟩, read⟩ := readRelayFile_some found
  have valid : relay.check = .ok () := by
    have read := read name named
    unfold RelaySettings.ofFile at read
    split at read
    · cases read
    · exact RelaySettings.check_of_ofText read
  by_cases none : held.sessionCapacity = 0
  · refine iff_of_false (fun passed => ?_) (by omega)
    simp only [check, none, if_true] at passed
    cases passed
  · refine iff_of_true ?_ (Nat.pos_of_ne_zero none)
    simp only [check, none, valid, Except.mapError]
    rfl

/-- Settings that are found are valid. They come from the environment and the settings file, but for
those of the relay if it has a file of its own; and some key is good, if only the demo key, of which
the log warns. -/
theorem load_sound (found : load environment files = some (s, lines)) :
    s.check = .ok () ∧ s.keys ≠ [] ∧ s.keys.Nodup ∧
      ∃ members held, ofFile files = some members ∧
        shape.take Layer.source (merged environment members) = some held ∧
        (∀ name, held.relayFile = some name → RelaySettings.ofFile files name = .ok s.relay) ∧
        (if held.keys = [] then s.keys = [demoKey] ∧ lines = [demoWarning]
          else s.keys = held.keys ∧ lines = []) := by
  simp only [load, Option.bind_eq_bind, Option.bind_eq_some_iff, Option.pure_def,
    Option.some.injEq] at found
  obtain ⟨members, file, held, taken, used, read, _, valid, same⟩ := found
  obtain ⟨⟨relay, rfl⟩, own⟩ := readRelayFile_some read
  have once := nodup_of_take taken
  have passes : check { held with relay } = .ok () := by
    cases passed : check { held with relay } with
    | error reason => simp [passed, Except.toOption] at valid
    | ok => rfl
  unfold admitDemoKey at same
  split at same
  · next keyless =>
    cases same
    refine ⟨passes, List.cons_ne_nil demoKey [], List.nodup_singleton demoKey, members, held, file,
      taken, own, ?_⟩
    rw [if_pos (List.isEmpty_iff.mp keyless)]
    exact ⟨rfl, rfl⟩
  · next keyed =>
    cases same
    have some : held.keys ≠ [] := fun none => keyed (List.isEmpty_iff.mpr none)
    refine ⟨passes, some, once, members, held, file, taken, own, ?_⟩
    rw [if_neg some]
    exact ⟨rfl, rfl⟩

example : load [] (fun _ => none) = some ({ default with keys := [demoKey] }, [demoWarning]) := by
  rfl

/-- Settings that are found start a server. -/
theorem make_of_load (found : load environment files = some (s, lines)) (observed : Bool) :
    ∃ server, Server.make s observed = .ok server ∧ server.settings = s := by
  obtain ⟨valid, _⟩ := load_sound found
  exact ⟨_, by rw [Server.make, valid], rfl⟩

theorem socketAddress_of_dotted {a b c d : Nat} (address : s.address = Net.SocketAddress.dotted a b c d)
    (fits : (Net.SocketAddress.short a b c d s.port).Fits) :
    s.socketAddress = some (.short a b c d s.port) := by
  rw [socketAddress, address]
  exact Net.SocketAddress.parse_short fits

end

end ServerSettings

end NotificationRelay
