import ReleaseDraft.Main
import ReleaseDraft.Proofs.AllOrNothing
import ReleaseDraft.Proofs.PageBoundaries
import ReleaseDraft.Proofs.Wrapping
import ReleaseDraft.Proofs.BulletBlocks
import ReleaseDraft.Proofs.Credential
import ReleaseDraft.Proofs.ReadBack
import ReleaseDraft.Proofs.Anonymity
import ReleaseDraft.Proofs.Repetition
import ReleaseDraft.Proofs.RepositoryPath
import ReleaseDraft.Proofs.Lookups
import ReleaseDraft.Proofs.RemoteNames
import ReleaseDraft.Proofs.FewestLines
import ReleaseDraft.Proofs.Rewrapping
import ReleaseDraft.Proofs.WholeLinks
import ReleaseDraft.Proofs.LinkHeaders
import ReleaseDraft.Proofs.NewestTag
import ReleaseDraft.Proofs.CanonicalSlugs
import ReleaseDraft.Proofs.InterfaceRoot
import ReleaseDraft.Proofs.Decoding
import ReleaseDraft.Proofs.Draining
import ReleaseDraft.Proofs.DateTexts
import ReleaseDraft.Proofs.ArgumentOrder
