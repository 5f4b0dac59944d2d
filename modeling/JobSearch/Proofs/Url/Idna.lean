import JobSearch.Url.Reader

/-!
# Rules that know more names

The rules for names decide which form the name of a host has, and nothing else of a URL depends on
them. A URL that is read is therefore read alike under rules that know more names, and one with a
plain name is read alike under all rules.
-/

namespace JobSearch.Url

variable {idna idna' : Idna} {t : Text}

namespace Idna

/-- The other rules know no name to which these do not give the same form. -/
def Extends (idna' idna : Idna) : Prop :=
  ∀ bytes t, idna.toAscii? bytes = some t → idna'.toAscii? bytes = some t

/-- The rules that know plain names alone. -/
def plain : Idna := ⟨fun _ => none⟩

theorem extends_plain (idna : Idna) : idna.Extends plain := fun _ _ h => nomatch h

theorem name?_mono (h : idna'.Extends idna) {bytes : List UInt8}
    (ht : idna.name? bytes = some t) : idna'.name? bytes = some t := by
  rw [name?] at ht ⊢
  split at ht
  · next hp => rwa [if_pos hp]
  · next hp =>
    rw [if_neg hp]
    exact h bytes t ht

end Idna

theorem specialHost_mono (h : idna'.Extends idna) {host : Host}
    (hh : specialHost idna t = .ok host) : specialHost idna' t = .ok host := by
  unfold specialHost at hh ⊢
  split at hh
  · exact hh
  · split at hh
    · cases hh
    · next name hn =>
      rw [Idna.name?_mono h hn]
      exact hh

/-- The login, the port and what follows the authority do not depend on the rules. -/
theorem readAuthority_mono (h : idna'.Extends idna) {scheme : Text} {a : Authority × Text}
    (ha : readAuthority idna scheme t = .ok a) : readAuthority idna' scheme t = .ok a := by
  unfold readAuthority at ha ⊢
  dsimp only at ha ⊢
  split at ha
  · cases ha
  · next hne =>
    rw [if_neg hne]
    split at ha
    · cases ha
    · next host hhost =>
      split at hhost
      · next hs =>
        rw [if_pos hs, specialHost_mono h hhost]
        exact ha
      · next hs =>
        rw [if_neg hs, hhost]
        exact ha

theorem afterSlashes_mono (h : idna'.Extends idna) {scheme : Text} {u : Url}
    (hu : afterSlashes idna scheme t = .ok u) : afterSlashes idna' scheme t = .ok u := by
  unfold afterSlashes at hu ⊢
  split at hu
  · cases hu
  · next a rest ha =>
    rw [readAuthority_mono h ha]
    exact hu

theorem afterPlainScheme_mono (h : idna'.Extends idna) {scheme : Text} {u : Url}
    (hu : afterPlainScheme idna scheme t = .ok u) : afterPlainScheme idna' scheme t = .ok u := by
  unfold afterPlainScheme at hu ⊢
  split at hu
  · exact afterSlashes_mono h hu
  · exact hu
  · exact hu

theorem afterFileScheme_mono (h : idna'.Extends idna) {u : Url}
    (hu : afterFileScheme idna t = .ok u) : afterFileScheme idna' t = .ok u := by
  unfold afterFileScheme at hu ⊢
  split at hu
  · next c d r =>
    dsimp only at hu ⊢
    split at hu
    · next hslash =>
      rw [if_pos hslash]
      split at hu
      · next hempty => rwa [if_pos hempty]
      · next hempty =>
        rw [if_neg hempty]
        split at hu
        · next hdrive => rwa [if_pos hdrive]
        · next hdrive =>
          rw [if_neg hdrive]
          split at hu
          · cases hu
          · next host hhost =>
            rw [specialHost_mono h hhost]
            exact hu
    · next hslash => rwa [if_neg hslash]
  · exact hu

/-- A URL that is read is read alike under rules that know more names. -/
theorem parse_mono (h : idna'.Extends idna) {u : Url} (hu : parse idna t = .ok u) :
    parse idna' t = .ok u := by
  unfold parse at hu ⊢
  split at hu
  · cases hu
  · next scheme r hr =>
    split at hu
    · next hf =>
      rw [if_pos hf]
      exact afterFileScheme_mono h hu
    · next hf =>
      rw [if_neg hf]
      split at hu
      · next hs =>
        rw [if_pos hs]
        exact afterSlashes_mono h hu
      · next hs =>
        rw [if_neg hs]
        exact afterPlainScheme_mono h hu

/-- A URL that is read without rules for other names is read alike under all rules. -/
theorem parse_of_plain {u : Url} (hu : parse .plain t = .ok u) (idna : Idna) :
    parse idna t = .ok u :=
  parse_mono (Idna.extends_plain idna) hu

end JobSearch.Url
