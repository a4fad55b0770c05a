import Mathlib

namespace DbApi.Library

variable {σ : Type} {P : σ → Prop} {r : σ → σ → Prop} {major minor : σ → Nat} {s : σ}

end DbApi.Library
